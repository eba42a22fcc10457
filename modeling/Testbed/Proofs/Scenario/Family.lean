/-
A scenario together with all scenarios embedded in it.

An operation may carry a scenario, whose operations may carry scenarios in turn.  The
family of a scenario lists all of them, each before those that it carries; facts about
the whole family are proved by induction from the embedded scenarios outwards.

A copy is a copy of the whole family, member by member: every member gets an identity
of its own, the next ones in the order of the family, remembers its original and how
many operations that had, and keeps everything else.
-/
import Testbed.Scenario.Basic
import Mathlib.Data.List.Nodup
import Mathlib.Data.List.Forall2

namespace Testbed

namespace Operation

variable {σ : Type}

/-- Replaces the scenario that an operation carries, if it carries one. -/
def withEmbedded (op : Operation σ) (s : σ) : Operation σ :=
  match op.payload with
  | some (.startScenario ⟨.embedded _, arguments⟩) =>
    { op with payload := some (.startScenario ⟨.embedded s, arguments⟩) }
  | _ => op

theorem withEmbedded_of_none {op : Operation σ} (h : op.embedded? = none) (s : σ) :
    op.withEmbedded s = op := by
  unfold withEmbedded
  split
  · rename_i hp
    simp [embedded?, hp, Payload.embedded?] at h
  · rfl

theorem payload_of_embedded? {op : Operation σ} {s : σ} (h : op.embedded? = some s) :
    ∃ arguments, op.payload = some (.startScenario ⟨.embedded s, arguments⟩) := by
  obtain ⟨p, hp, hs⟩ := Option.bind_eq_some_iff.mp h
  unfold Payload.embedded? at hs
  split at hs
  · cases hs
    exact ⟨_, hp⟩
  · simp at hs

theorem withEmbedded_of_payload {op : Operation σ} {s : σ} {arguments : NamedTokens}
    (h : op.payload = some (.startScenario ⟨.embedded s, arguments⟩)) (t : σ) :
    op.withEmbedded t
      = { op with payload := some (.startScenario ⟨.embedded t, arguments⟩) } := by
  unfold withEmbedded
  rw [h]

theorem embedded?_withEmbedded {op : Operation σ} {s : σ} (h : op.embedded? = some s) (t : σ) :
    (op.withEmbedded t).embedded? = some t := by
  obtain ⟨arguments, hp⟩ := payload_of_embedded? h
  rw [withEmbedded_of_payload hp]
  rfl

end Operation

namespace Scenario

/-! ### From the embedded scenarios outwards -/

theorem sizeOf_embedded_lt {s sub : Scenario} {op : Operation Scenario}
    (hop : op ∈ s.operations) (h : op.embedded? = some sub) : sizeOf sub < sizeOf s := by
  obtain ⟨arguments, hp⟩ := Operation.payload_of_embedded? h
  have hops := List.sizeOf_lt_of_mem hop
  obtain ⟨kind, label, payload, wait, first, second⟩ := op
  cases hp
  obtain ⟨identity, ancestry, name, description, args, constants, operations⟩ := s
  simp only [Operation.mk.sizeOf_spec, Option.some.sizeOf_spec, Payload.startScenario.sizeOf_spec,
    ScenarioLaunch.mk.sizeOf_spec, SubScenario.embedded.sizeOf_spec] at hops
  simp only [Scenario.mk.sizeOf_spec]
  omega

/-- What holds of a scenario once it holds of the embedded ones holds of all. -/
theorem embeddedInduction {P : Scenario → Prop}
    (step : ∀ s, (∀ op ∈ s.operations, ∀ sub, op.embedded? = some sub → P sub) → P s)
    (s : Scenario) : P s :=
  step s fun _ hop sub hsub =>
    have := sizeOf_embedded_lt hop hsub
    embeddedInduction step sub
termination_by sizeOf s

/-! ### The family of a scenario -/

mutual

/-- A scenario and all scenarios embedded in it, each before those it carries. -/
def family : Scenario → List Scenario
  | ⟨identity, ancestry, name, description, arguments, constants, operations⟩ =>
    ⟨identity, ancestry, name, description, arguments, constants, operations⟩
      :: familyOfOperations operations

/-- The families of the scenarios that operations carry. -/
def familyOfOperations : List (Operation Scenario) → List Scenario
  | [] => []
  | ⟨_, _, some (.startScenario ⟨.embedded s, _⟩), _, _, _⟩ :: rest =>
    s.family ++ familyOfOperations rest
  | _ :: rest => familyOfOperations rest

end

end Scenario

/-- The family of the scenario that an operation carries. -/
def Operation.family (op : Operation Scenario) : List Scenario :=
  match op.embedded? with
  | some s => s.family
  | none => []

namespace Scenario

theorem familyOfOperations_eq (operations : List (Operation Scenario)) :
    familyOfOperations operations = operations.flatMap Operation.family := by
  induction operations with
  | nil => rfl
  | cons op rest ih =>
      rw [List.flatMap_cons, ← ih]
      obtain ⟨kind, label, payload, wait, first, second⟩ := op
      match payload with
      | none => rfl
      | some (.startScenario ⟨.embedded s, arguments⟩) => rfl
      | some (.startScenario ⟨.named name, arguments⟩) => rfl
      | some (.startJob _) | some (.stopJob _) | some (.stopJobs _) | some (.stopScenario _)
      | some (.reboot _) | some (.branch _) | some (.loop _) => rfl

theorem family_eq (s : Scenario) : s.family = s :: s.operations.flatMap Operation.family := by
  rw [← familyOfOperations_eq]
  cases s
  rfl

theorem mem_family_self (s : Scenario) : s ∈ s.family := by
  rw [family_eq]
  exact List.mem_cons_self

theorem mem_family_of_embedded {s sub : Scenario} {op : Operation Scenario}
    (hop : op ∈ s.operations) (h : op.embedded? = some sub) {t : Scenario} (ht : t ∈ sub.family) :
    t ∈ s.family := by
  rw [family_eq]
  refine List.mem_cons_of_mem _ (List.mem_flatMap.mpr ⟨op, hop, ?_⟩)
  rwa [Operation.family, h]

/-- The family of a member is part of the family. -/
theorem family_trans {s t u : Scenario} (ht : t ∈ s.family) (hu : u ∈ t.family) :
    u ∈ s.family := by
  induction s using embeddedInduction with
  | step s ih =>
      rw [family_eq] at ht
      rcases List.mem_cons.mp ht with rfl | ht
      · exact hu
      · obtain ⟨op, hop, hmem⟩ := List.mem_flatMap.mp ht
        unfold Operation.family at hmem
        split at hmem
        · rename_i sub hsub
          exact mem_family_of_embedded hop hsub (ih op hop sub hsub hmem)
        · simp at hmem

/-! ### Copies -/

/-- An operation that was copied: only the scenario it carries may be another one. -/
def OperationCopy (op copy : Operation Scenario) : Prop := ∃ s, copy = op.withEmbedded s

theorem OperationCopy.refl (op : Operation Scenario) (h : op.embedded? = none) :
    OperationCopy op op :=
  ⟨⟨0, [], "", "", [], [], []⟩, (Operation.withEmbedded_of_none h _).symm⟩

/-- What a copy of a single scenario shares with its original, and what it remembers of it. -/
structure CopyOf (s copy : Scenario) : Prop where
  ancestry : copy.ancestry = s.ancestry ++ [⟨s.identity, s.size⟩]
  name : copy.name = s.name
  description : copy.description = s.description
  arguments : copy.arguments = s.arguments
  constants : copy.constants = s.constants
  operations : List.Forall₂ OperationCopy s.operations copy.operations

theorem CopyOf.size {s copy : Scenario} (h : CopyOf s copy) : copy.size = s.size :=
  h.operations.length_eq.symm

/-- Scenarios copied one by one: they take the identities from `n` on, and `m` is the next. -/
structure FreshCopies (originals copies : List Scenario) (n m : IdentityCounter) : Prop where
  pairs : List.Forall₂ CopyOf originals copies
  identities : copies.map Scenario.identity = List.range' n originals.length
  next : m = n + originals.length

namespace FreshCopies

theorem nil (n : IdentityCounter) : FreshCopies [] [] n n := ⟨.nil, rfl, rfl⟩

theorem append {first firstCopies rest restCopies : List Scenario} {n m k : IdentityCounter}
    (h : FreshCopies first firstCopies n m) (h' : FreshCopies rest restCopies m k) :
    FreshCopies (first ++ rest) (firstCopies ++ restCopies) n k := by
  refine ⟨List.rel_append h.pairs h'.pairs, ?_, ?_⟩
  · rw [List.map_append, h.identities, h'.identities, h.next, List.length_append,
      List.range'_append_1]
  · rw [h'.next, h.next, List.length_append, Nat.add_assoc]

end FreshCopies

/-- Copies the scenario that an operation carries. -/
def cloneOperation (op : Operation Scenario) : StateM IdentityCounter (Operation Scenario) :=
  match op.embedded? with
  | some s => do
    let copy ← s.clone
    return op.withEmbedded copy
  | none => return op

theorem cloneOperations_cons (op : Operation Scenario) (rest : List (Operation Scenario)) :
    cloneOperations (op :: rest) = do
      let copy ← cloneOperation op
      let copies ← cloneOperations rest
      return copy :: copies := by
  obtain ⟨kind, label, payload, wait, first, second⟩ := op
  match payload with
  | none => rfl
  | some (.startScenario ⟨.embedded s, arguments⟩) => rfl
  | some (.startScenario ⟨.named name, arguments⟩) => rfl
  | some (.startJob _) | some (.stopJob _) | some (.stopJobs _) | some (.stopScenario _)
  | some (.reboot _) | some (.branch _) | some (.loop _) => rfl

/-- A copy, and the identity after those that it takes. -/
theorem clone_run (s : Scenario) (n : IdentityCounter) :
    s.clone.run n =
      (⟨n, s.ancestry ++ [⟨s.identity, s.size⟩], s.name, s.description, s.arguments, s.constants,
        ((cloneOperations s.operations).run (n + 1)).1⟩,
        ((cloneOperations s.operations).run (n + 1)).2) := by
  cases s
  rfl

theorem cloneOperation_spec {op : Operation Scenario}
    (hsub : ∀ sub, op.embedded? = some sub → ∀ n,
      FreshCopies sub.family (sub.clone.run n).1.family n (sub.clone.run n).2)
    (n : IdentityCounter) :
    OperationCopy op ((cloneOperation op).run n).1
      ∧ FreshCopies op.family ((cloneOperation op).run n).1.family n
        ((cloneOperation op).run n).2 := by
  unfold cloneOperation
  cases hemb : op.embedded? with
  | none =>
      refine ⟨OperationCopy.refl op hemb, ?_⟩
      have hfamily : op.family = [] := by rw [Operation.family, hemb]
      show FreshCopies op.family op.family n n
      rw [hfamily]
      exact .nil n
  | some sub =>
      refine ⟨⟨(sub.clone.run n).1, rfl⟩, ?_⟩
      have hfamily : op.family = sub.family := by rw [Operation.family, hemb]
      have hcopy : (op.withEmbedded (sub.clone.run n).1).family
          = (sub.clone.run n).1.family := by
        rw [Operation.family, Operation.embedded?_withEmbedded hemb]
      show FreshCopies op.family (op.withEmbedded (sub.clone.run n).1).family n
        (sub.clone.run n).2
      rw [hfamily, hcopy]
      exact hsub sub hemb n

/-- The operations of a copy, if the scenarios they carry are copied as they should be. -/
theorem cloneOperations_spec : ∀ (operations : List (Operation Scenario)),
    (∀ op ∈ operations, ∀ sub, op.embedded? = some sub → ∀ n,
      FreshCopies sub.family (sub.clone.run n).1.family n (sub.clone.run n).2) →
    ∀ n, List.Forall₂ OperationCopy operations ((cloneOperations operations).run n).1
      ∧ FreshCopies (operations.flatMap Operation.family)
        (((cloneOperations operations).run n).1.flatMap Operation.family) n
        ((cloneOperations operations).run n).2 := by
  intro operations
  induction operations with
  | nil => intro _ n; exact ⟨.nil, .nil n⟩
  | cons op rest ih =>
      intro hsub n
      obtain ⟨hop, hfirst⟩ := cloneOperation_spec (hsub op List.mem_cons_self) n
      obtain ⟨hops, hrest⟩ := ih (fun op' hop' => hsub op' (List.mem_cons_of_mem _ hop'))
        ((cloneOperation op).run n).2
      rw [cloneOperations_cons]
      exact ⟨.cons hop hops, hfirst.append hrest⟩

/-- **A copy of a scenario is a copy of its family, with the next identities in order.** -/
theorem clone_family (s : Scenario) : ∀ n,
    FreshCopies s.family (s.clone.run n).1.family n (s.clone.run n).2 := by
  induction s using embeddedInduction with
  | step s ih =>
      intro n
      obtain ⟨hops, hfresh⟩ := cloneOperations_spec s.operations ih (n + 1)
      rw [clone_run, family_eq, family_eq]
      refine ⟨.cons ⟨rfl, rfl, rfl, rfl, rfl, hops⟩ hfresh.pairs, ?_, ?_⟩
      · rw [List.map_cons, hfresh.identities, List.length_cons, List.range'_succ]
      · show _ = n + (_ :: _).length
        rw [List.length_cons, hfresh.next, Nat.add_assoc, Nat.add_comm 1]

end Scenario

end Testbed
