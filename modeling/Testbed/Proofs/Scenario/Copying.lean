/-
Copies are built to the same.

A copy and all scenarios embedded in it get identities that nobody had before, and the
handles that their operations hold are kept as they are, with the identities they were
issued with.  A copy owns such a handle exactly if its original does: the original and its
ancestors are ancestors of the copy, with all operations there were, and the one thing that
is new, the identity of the copy itself, is in no handle that is stored anywhere.  So every
copied scenario reads like its original.
-/
import Testbed.Proofs.Scenario.Waits

namespace Testbed

/-! ### Handles that are kept -/

namespace Scenario

/-- The operations of a copy hold the handles that those of its original hold. -/
theorem CopyOf.handles {s copy : Scenario} (h : CopyOf s copy) :
    copy.operations.map Operation.handles = s.operations.map Operation.handles := by
  refine (List.forall₂_eq_eq_eq ▸ List.forall₂_map_left_iff.mpr (List.forall₂_map_right_iff.mpr
    (h.operations.imp fun op copied hcopied => ?_))).symm
  obtain ⟨sub, rfl⟩ := hcopied
  exact (op.handles_withEmbedded sub).symm

/-- All handles that are stored in a scenario and the embedded ones carry identities below a
bound. -/
def HandlesBelow (bound : IdentityCounter) (s : Scenario) : Prop :=
  ∀ t ∈ s.family, ∀ op ∈ t.operations, ∀ h ∈ op.handles, h.scenario < bound

theorem HandlesBelow.embedded {bound : IdentityCounter} {s sub : Scenario}
    (h : s.HandlesBelow bound) {op : Operation Scenario} (hop : op ∈ s.operations)
    (hsub : op.embedded? = some sub) : sub.HandlesBelow bound :=
  fun t ht => h t (mem_family_of_embedded hop hsub ht)

/-- **A copy owns what its original owns,** except for handles that carry the identity of the
copy. -/
theorem owns_clone (s : Scenario) {n : IdentityCounter} {h : Handle} (hne : h.scenario ≠ n) :
    (s.clone.run n).1.owns h = s.owns h := by
  have hcopy : CopyOf s (s.clone.run n).1 := by
    have hpairs := (clone_family s n).pairs
    rw [family_eq, family_eq] at hpairs
    exact (List.forall₂_cons.mp hpairs).1
  have hidentity : (s.clone.run n).1.identity = n := by rw [clone_run]
  rw [Bool.eq_iff_iff, owns_iff, owns_iff, hcopy.size, hcopy.ancestry, hidentity]
  simp only [List.mem_append, List.mem_singleton]
  refine ⟨?_, ?_⟩
  · intro howns
    obtain ⟨hlt, hown | ⟨a, ha | rfl, hidentity, hboundary⟩⟩ := howns
    · exact absurd hown hne
    · exact ⟨hlt, Or.inr ⟨a, ha, hidentity, hboundary⟩⟩
    · exact ⟨hlt, Or.inl hidentity.symm⟩
  · intro howns
    obtain ⟨hlt, hown | ⟨a, ha, hidentity, hboundary⟩⟩ := howns
    · exact ⟨hlt, Or.inr ⟨_, Or.inr rfl, hown.symm, hlt⟩⟩
    · exact ⟨hlt, Or.inr ⟨a, Or.inl ha, hidentity, hboundary⟩⟩

/-! ### Builds of copies -/

/-- A scenario and its copy are built to the same. -/
abbrev SameBuild (s copy : Scenario) : Prop := copy.build = s.build

/-- The copy of an operation reads like the operation, if the scenario it carries is built to the
same as its copy. -/
theorem cloneOperation_alike {op : Operation Scenario} {n : IdentityCounter}
    (hsub : ∀ sub, op.embedded? = some sub →
      List.Forall₂ SameBuild sub.family (sub.clone.run n).1.family) :
    OperationAlike id op ((cloneOperation op).run n).1
      ∧ List.Forall₂ SameBuild op.family ((cloneOperation op).run n).1.family
      ∧ n ≤ ((cloneOperation op).run n).2 := by
  unfold cloneOperation
  cases hembedded : op.embedded? with
  | none =>
      have hfamily : op.family = [] := by rw [Operation.family, hembedded]
      refine ⟨⟨⟨0, [], "", "", [], [], []⟩, ?_, by simp [hembedded]⟩, ?_, Nat.le_refl n⟩
      · rw [Operation.mapHandles_id, Operation.withEmbedded_of_none hembedded]
        rfl
      · show List.Forall₂ SameBuild op.family op.family
        rw [hfamily]
        exact .nil
  | some sub =>
      have hbuilds := hsub sub hembedded
      have hfresh := clone_family sub n
      refine ⟨⟨(sub.clone.run n).1, by rw [Operation.mapHandles_id]; rfl, ?_⟩, ?_, ?_⟩
      · intro sub' hsub'
        cases hembedded.symm.trans hsub'
        have hpairs := hfresh.pairs
        rw [family_eq, family_eq] at hbuilds hpairs
        exact ⟨(List.forall₂_cons.mp hpairs).1.name, (List.forall₂_cons.mp hbuilds).1⟩
      · show List.Forall₂ SameBuild op.family (op.withEmbedded (sub.clone.run n).1).family
        rw [Operation.family, Operation.family, Operation.embedded?_withEmbedded hembedded,
          hembedded]
        exact hbuilds
      · show n ≤ (sub.clone.run n).2
        rw [hfresh.next]
        exact Nat.le_add_right n _

theorem cloneOperations_alike {bound : IdentityCounter} :
    ∀ (operations : List (Operation Scenario)),
    (∀ op ∈ operations, ∀ sub, op.embedded? = some sub → ∀ n, bound ≤ n →
      List.Forall₂ SameBuild sub.family (sub.clone.run n).1.family) →
    ∀ n, bound ≤ n →
      List.Forall₂ (OperationAlike id) operations ((cloneOperations operations).run n).1
        ∧ List.Forall₂ SameBuild (operations.flatMap Operation.family)
          (((cloneOperations operations).run n).1.flatMap Operation.family) := by
  intro operations
  induction operations with
  | nil => intro _ n _; exact ⟨.nil, .nil⟩
  | cons op rest ih =>
      intro hsub n hn
      obtain ⟨hop, hrest⟩ := List.forall_mem_cons.mp hsub
      obtain ⟨hlike, hfamily, hle⟩ := cloneOperation_alike fun sub hembedded =>
        hop sub hembedded n hn
      obtain ⟨hlikes, hfamilies⟩ := ih hrest _ (Nat.le_trans hn hle)
      rw [cloneOperations_cons]
      exact ⟨.cons hlike hlikes, List.rel_append hfamily hfamilies⟩

/-- A scenario and all embedded ones are built to the same as their copies, if the copies get
identities that no stored handle carries. -/
theorem clone_sameBuild (s : Scenario) : ∀ {bound : IdentityCounter}, s.HandlesBelow bound →
    ∀ n, bound ≤ n → List.Forall₂ SameBuild s.family (s.clone.run n).1.family := by
  induction s using embeddedInduction with
  | step s ih =>
      intro bound hbelow n hn
      obtain ⟨hoperations, hfamilies⟩ := cloneOperations_alike s.operations
        (fun op hop sub hsub => ih op hop sub hsub (hbelow.embedded hop hsub)) (n + 1)
        (Nat.le_succ_of_le hn)
      have halike : Alike id s (s.clone.run n).1 := by
        rw [clone_run]
        refine ⟨rfl, rfl, rfl, rfl, hoperations, fun op hop h hh => ⟨rfl, ?_⟩⟩
        have hlt := hbelow s (mem_family_self s) op hop h hh
        have howns := owns_clone s (Nat.ne_of_lt (Nat.lt_of_lt_of_le hlt hn))
        rw [clone_run] at howns
        exact howns
      rw [family_eq, family_eq]
      refine .cons halike.build_eq ?_
      rw [clone_run]
      exact hfamilies

end Scenario

namespace World

theorem Reachable.handlesBelow {w : World} (hw : w.Reachable) {s : Scenario} (hs : s ∈ w.live) :
    s.HandlesBelow w.counter :=
  fun _ ht _ hop => hw.handles_lt (live_trans hs ht) hop

/--
**A copy of a scenario is built to the same document as the scenario, or fails with the same
error.**

So is every scenario that is embedded at any depth, though each of the copies gets an identity
that no scenario ever had, and the operations keep the handles that they hold.
-/
theorem build_clone {w : World} (hw : w.Reachable) {s copy : Scenario} (hs : s ∈ w.live)
    {n : IdentityCounter} (hclone : s.clone.run w.counter = (copy, n)) :
    copy.build = s.build
      ∧ ((copy.family.map Scenario.identity).Nodup
        ∧ ∀ t ∈ copy.family, t.identity ∉ w.log.born)
      ∧ List.Forall₂ (fun original copied =>
        copied.operations.map Operation.handles = original.operations.map Operation.handles
          ∧ copied.build = original.build) s.family copy.family := by
  obtain rfl : copy = (s.clone.run w.counter).1 := by rw [hclone]
  have hfresh := Scenario.clone_family s w.counter
  have hbuilds := Scenario.clone_sameBuild s (hw.handlesBelow hs) w.counter (Nat.le_refl _)
  refine ⟨?_, ⟨?_, ?_⟩, ?_⟩
  · rw [Scenario.family_eq, Scenario.family_eq] at hbuilds
    exact (List.forall₂_cons.mp hbuilds).1
  · rw [hfresh.identities]
    exact List.nodup_range'
  · intro t ht hborn
    have hmem := List.mem_map_of_mem (f := Scenario.identity) ht
    rw [hfresh.identities, List.mem_range'_1] at hmem
    have hlt := hw.recorded.bound _ hborn
    omega
  · refine List.forall₂_iff_zip.mpr ⟨hbuilds.length_eq, fun {original copied} hpair => ?_⟩
    exact ⟨((List.forall₂_iff_zip.mp hfresh.pairs).2 hpair).handles,
      (List.forall₂_iff_zip.mp hbuilds).2 hpair⟩

/-- A scenario that sends another one along, waits until it is done, and stops it. -/
def launchAndStop : Scenario :=
  ⟨2, [], "Launch", "", [], [],
    [⟨.startScenario, none, some (.startScenario ⟨.embedded (Scenario.rebootOnce 1 []), []⟩),
        .immediate, [], []⟩,
      ⟨.stopScenario, none, some (.stopScenario ⟨2, 0⟩), ⟨.zero, [], [⟨2, 0⟩]⟩, [], []⟩]⟩

/-- Its document. -/
def launchAndStopDocument : Document :=
  ⟨"Launch", "", [], [],
    [⟨0, "#0", .startScenario (Document.toJson ⟨"Reboot", "", [], [],
        [⟨0, "#0", .reboot (.string "agent"), .immediate⟩]⟩) [], .immediate⟩,
      ⟨1, "#1", .stopScenario 0, ⟨.integer 0, [], [0]⟩⟩]⟩

theorem launchAndStop_build : launchAndStop.build = .ok launchAndStopDocument := by cbv

/-- The scenario that is sent along was put into the operation, and no one else holds it. -/
def launchAndStopMade : World :=
  ⟨3, [launchAndStop], Scenario.rebootMade.log ++ [.created 2,
    .added ⟨2, 0⟩ (.new .startScenario .immediate), .issued ⟨2, 0⟩ ⟨2, 0⟩,
    .changed ⟨2, 0⟩ (.payload (.startScenario ⟨.embedded (Scenario.rebootOnce 1 []), []⟩)),
    .added ⟨2, 1⟩ (.new .stopScenario ⟨.zero, [], [⟨2, 0⟩]⟩), .issued ⟨2, 1⟩ ⟨2, 1⟩,
    .changed ⟨2, 1⟩ (.payload (.stopScenario ⟨2, 0⟩))]⟩

theorem launchAndStopMade_reachable : launchAndStopMade.Reachable := by
  have hcreate := Scenario.rebootMade_reachable.tail (.create "Launch" "" rfl)
  have hlaunch := hcreate.trans (leads_withLast .startScenario .immediate (Log.issued_immediate _)
    [.payload (.startScenario ⟨.embedded (Scenario.rebootOnce 1 []), []⟩)]
    (List.forall_mem_singleton.mpr (Log.offers_payload (List.forall_mem_nil _))) rfl)
  exact hlaunch.trans (leads_withLast .stopScenario (Wait.Made.immediate.finished ⟨2, 0⟩)
    (List.forall_mem_singleton.mpr Log.issued_logLast) [.payload (.stopScenario ⟨2, 0⟩)]
    (List.forall_mem_singleton.mpr (Log.offers_payload
      (List.forall_mem_singleton.mpr Log.issued_logLast))) rfl)

/-- Its copy has the identity 3 and the one of the scenario that is sent along has the identity 4,
and the copy is built to the same document. -/
theorem launchAndStop_copy : launchAndStopMade.Reachable ∧ launchAndStop ∈ launchAndStopMade.live
    ∧ ∃ copy n, launchAndStop.clone.run 3 = (copy, n)
      ∧ copy.family.map Scenario.identity = [3, 4] ∧ copy.build = .ok launchAndStopDocument := by
  have hlive : launchAndStop ∈ launchAndStopMade.live :=
    List.mem_flatMap.mpr ⟨launchAndStop, List.mem_cons_self, Scenario.mem_family_self _⟩
  have hcopy : (launchAndStop.clone.run 3).1.build = launchAndStop.build :=
    (build_clone launchAndStopMade_reachable hlive rfl).1
  exact ⟨launchAndStopMade_reachable, hlive, _, _, rfl, by cbv, hcopy.trans launchAndStop_build⟩

end World

end Testbed
