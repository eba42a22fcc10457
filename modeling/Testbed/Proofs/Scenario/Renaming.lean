/-
Identities that are exchanged for others.

An identity does nothing but tell scenarios apart.  If all identities in a scenario are
exchanged, different ones for different ones, then everything that can be asked of the
scenario is answered as before, every change is carried out or refused as before, and
it is built as before.  A copy is the exchanged copy, as long as the identities that it takes
are the ones for which those of the other copy are exchanged.
-/
import Testbed.Proofs.Scenario.Likeness

namespace Testbed

/-! ### Renamings -/

/-- A handle under another identity. -/
def Handle.rename (f : Nat → Nat) (h : Handle) : Handle := ⟨f h.scenario, h.index⟩

/-- An ancestor under another identity; the boundary stays where it is. -/
def Ancestor.rename (f : Nat → Nat) (a : Ancestor) : Ancestor := ⟨f a.identity, a.boundary⟩

namespace Scenario

mutual

/-- A scenario under other identities, with all scenarios that are embedded in it. -/
def rename (f : Nat → Nat) : Scenario → Scenario
  | ⟨identity, ancestry, name, description, arguments, constants, operations⟩ =>
    ⟨f identity, ancestry.map (Ancestor.rename f), name, description, arguments, constants,
      renameOperations f operations⟩

/-- Operations under other identities: the handles they hold, and the scenarios they carry. -/
def renameOperations (f : Nat → Nat) : List (Operation Scenario) → List (Operation Scenario)
  | [] => []
  | ⟨kind, label, some (.startScenario ⟨.embedded s, arguments⟩), wait, first, second⟩ :: rest =>
    ⟨kind, label, some (.startScenario ⟨.embedded (s.rename f), arguments⟩),
      wait.mapHandles (Handle.rename f), first.map (Handle.rename f),
      second.map (Handle.rename f)⟩ :: renameOperations f rest
  | op :: rest => op.mapHandles (Handle.rename f) :: renameOperations f rest

end

end Scenario

/-- A payload under other identities. -/
def Payload.rename (f : Nat → Nat) : Payload Scenario → Payload Scenario
  | startScenario ⟨.embedded s, arguments⟩ => startScenario ⟨.embedded (s.rename f), arguments⟩
  | p => p.mapHandles (Handle.rename f)

/-- An operation under other identities. -/
def Operation.rename (f : Nat → Nat) (op : Operation Scenario) : Operation Scenario :=
  ⟨op.kind, op.label, op.payload.map (Payload.rename f), op.wait.mapHandles (Handle.rename f),
    op.firstBody.map (Handle.rename f), op.secondBody.map (Handle.rename f)⟩

variable {f g : Nat → Nat}

theorem Handle.rename_injective (hf : Function.Injective f) :
    Function.Injective (Handle.rename f) := by
  intro a b h
  have hscenario : a.scenario = b.scenario := hf (congrArg Handle.scenario h)
  have hindex : (a.rename f).index = (b.rename f).index := congrArg Handle.index h
  cases a
  cases b
  exact congrArg₂ Handle.mk hscenario hindex

/-! ### What is renamed -/

theorem Payload.kind_rename (f : Nat → Nat) (p : Payload Scenario) :
    (p.rename f).kind = p.kind := by
  unfold rename
  split
  · rfl
  · cases p <;> rfl

theorem Payload.targets_rename (f : Nat → Nat) (p : Payload Scenario) :
    (p.rename f).targets = p.targets.map (Handle.rename f) := by
  unfold rename
  split
  · rfl
  · cases p <;> rfl

namespace Operation

theorem handles_rename (f : Nat → Nat) (op : Operation Scenario) :
    (op.rename f).handles = op.handles.map (Handle.rename f) := by
  have htargets : (op.payload.map (Payload.rename f)).elim [] Payload.targets
      = (op.payload.elim [] Payload.targets).map (Handle.rename f) := by
    cases op.payload with
    | none => rfl
    | some p => exact p.targets_rename f
  unfold handles
  simp only [rename, htargets, Wait.references, Wait.mapHandles, List.map_append]

/-- A renamed operation holds renamed handles, and carries a renamed scenario. -/
theorem rename_of_embedded {op : Operation Scenario} {sub : Scenario}
    (h : op.embedded? = some sub) (f : Nat → Nat) :
    op.rename f = (op.mapHandles (Handle.rename f)).withEmbedded (sub.rename f) := by
  obtain ⟨arguments, hp⟩ := payload_of_embedded? h
  have hmapped : (op.mapHandles (Handle.rename f)).payload
      = some (.startScenario ⟨.embedded sub, arguments⟩) := by
    rw [mapHandles, hp]
    rfl
  rw [withEmbedded_of_payload hmapped, rename, hp]
  rfl

theorem rename_of_none {op : Operation Scenario} (h : op.embedded? = none) (f : Nat → Nat) :
    op.rename f = op.mapHandles (Handle.rename f) := by
  unfold rename mapHandles
  cases hp : op.payload with
  | none => rfl
  | some p =>
      have hnone : p.embedded? = none := by rwa [embedded?, hp] at h
      cases p with
      | startScenario launch =>
          obtain ⟨scenario, arguments⟩ := launch
          cases scenario with
          | embedded s => cases hnone
          | named name => rfl
      | _ => rfl

theorem embedded?_rename (f : Nat → Nat) (op : Operation Scenario) :
    (op.rename f).embedded? = op.embedded?.map (Scenario.rename f) := by
  cases h : op.embedded? with
  | none => rw [rename_of_none h, embedded?_mapHandles, h, Option.map_none]
  | some sub =>
      rw [rename_of_embedded h, embedded?_withEmbedded ((embedded?_mapHandles _ op).trans h),
        Option.map_some]

theorem withEmbedded_rename {op : Operation Scenario} {sub : Scenario}
    (h : op.embedded? = some sub) (f : Nat → Nat) (t : Scenario) :
    (op.withEmbedded t).rename f = (op.rename f).withEmbedded (t.rename f) := by
  obtain ⟨arguments, hp⟩ := payload_of_embedded? h
  have hrenamed : (op.rename f).payload
      = some (.startScenario ⟨.embedded (sub.rename f), arguments⟩) := by
    rw [rename, hp]
    rfl
  rw [withEmbedded_of_payload hp, withEmbedded_of_payload hrenamed]
  rfl

end Operation

namespace Scenario

theorem renameOperations_eq (f : Nat → Nat) (operations : List (Operation Scenario)) :
    renameOperations f operations = operations.map (Operation.rename f) := by
  induction operations with
  | nil => rfl
  | cons op rest ih =>
      rw [List.map_cons, ← ih]
      obtain ⟨kind, label, payload, wait, first, second⟩ := op
      match payload with
      | none => rfl
      | some (.startScenario ⟨.embedded s, arguments⟩) => rfl
      | some (.startScenario ⟨.named name, arguments⟩) => rfl
      | some (.startJob _) | some (.stopJob _) | some (.stopJobs _) | some (.stopScenario _)
      | some (.reboot _) | some (.branch _) | some (.loop _) => rfl

theorem rename_eq (f : Nat → Nat) (s : Scenario) :
    s.rename f = ⟨f s.identity, s.ancestry.map (Ancestor.rename f), s.name, s.description,
      s.arguments, s.constants, s.operations.map (Operation.rename f)⟩ := by
  rw [← renameOperations_eq]
  cases s
  rfl

@[simp] theorem size_rename (f : Nat → Nat) (s : Scenario) : (s.rename f).size = s.size := by
  rw [rename_eq, size, List.length_map]
  rfl

end Scenario

namespace Scenario

/-- The scenarios embedded in a renamed scenario are the renamed ones. -/
theorem family_rename (f : Nat → Nat) (s : Scenario) :
    (s.rename f).family = s.family.map (rename f) := by
  induction s using embeddedInduction with
  | step s ih =>
      have hoperations : (s.operations.map (Operation.rename f)).flatMap Operation.family
          = (s.operations.flatMap Operation.family).map (rename f) := by
        rw [List.flatMap_map, List.map_flatMap]
        refine List.flatMap_congr fun op hop => ?_
        rw [Operation.family, Operation.family, Operation.embedded?_rename]
        cases hembedded : op.embedded? with
        | none => rfl
        | some sub => exact ih op hop sub hembedded
      rw [family_eq, family_eq, List.map_cons, ← hoperations, rename_eq]

end Scenario

/-! ### Renaming twice -/

theorem Payload.rename_rename {p : Payload Scenario}
    (hsub : ∀ sub, p.embedded? = some sub → (sub.rename f).rename g = sub.rename (g ∘ f)) :
    (p.rename f).rename g = p.rename (g ∘ f) := by
  match p with
  | .startScenario ⟨.embedded s, arguments⟩ =>
      have hs : (s.rename f).rename g = s.rename (g ∘ f) := hsub s rfl
      simp only [rename, hs]
  | .stopJobs targets => exact congrArg stopJobs List.map_map
  | .startScenario ⟨.named _, _⟩ | .startJob _ | .stopJob _ | .stopScenario _ | .reboot _
  | .branch _ | .loop _ => rfl

theorem Operation.rename_rename_of {op : Operation Scenario}
    (hsub : ∀ sub, op.embedded? = some sub → (sub.rename f).rename g = sub.rename (g ∘ f)) :
    (op.rename f).rename g = op.rename (g ∘ f) := by
  have hpayload : (op.payload.map (Payload.rename f)).map (Payload.rename g)
      = op.payload.map (Payload.rename (g ∘ f)) := by
    cases hp : op.payload with
    | none => rfl
    | some p =>
        refine congrArg some (Payload.rename_rename fun sub hembedded => hsub sub ?_)
        rwa [embedded?, hp]
  simp only [rename, hpayload, Wait.mapHandles, List.map_map]
  rfl

/-- Exchanging identities twice is exchanging them once. -/
theorem Scenario.rename_rename (f g : Nat → Nat) (s : Scenario) :
    (s.rename f).rename g = s.rename (g ∘ f) := by
  induction s using embeddedInduction with
  | step s ih =>
      have hoperations : (s.operations.map (Operation.rename f)).map (Operation.rename g)
          = s.operations.map (Operation.rename (g ∘ f)) := by
        rw [List.map_map]
        exact List.map_congr_left fun op hop => Operation.rename_rename_of (ih op hop)
      simp only [rename_eq, hoperations, List.map_map]
      rfl

theorem Operation.rename_rename (f g : Nat → Nat) (op : Operation Scenario) :
    (op.rename f).rename g = op.rename (g ∘ f) :=
  rename_rename_of fun sub _ => sub.rename_rename f g

/-- An identity that is exchanged for itself stays what it is. -/
theorem Scenario.rename_id (s : Scenario) : s.rename id = s := by
  induction s using embeddedInduction with
  | step s ih =>
      have hoperation : ∀ op ∈ s.operations, op.rename id = op := by
        intro op hop
        have hhandles : op.mapHandles (Handle.rename id) = op := op.mapHandles_id
        cases hembedded : op.embedded? with
        | none => rw [Operation.rename_of_none hembedded, hhandles]
        | some sub =>
            obtain ⟨arguments, hp⟩ := Operation.payload_of_embedded? hembedded
            rw [Operation.rename_of_embedded hembedded, hhandles, ih op hop sub hembedded,
              Operation.withEmbedded_of_payload hp, ← hp]
      have hoperations : s.operations.map (Operation.rename id) = s.operations := by
        rw [List.map_congr_left hoperation, List.map_id']
      rw [rename_eq, hoperations, show Ancestor.rename id = id from rfl, List.map_id]
      cases s
      rfl

/-! ### Waits and settings -/

section Settings

variable (hf : Function.Injective f)

include hf

theorem Wait.addTo_rename (handles : List Handle) (h : Handle) :
    addTo (handles.map (Handle.rename f)) (h.rename f) = (addTo handles h).map (Handle.rename f) := by
  have hcontains : (handles.map (Handle.rename f)).contains (h.rename f) = handles.contains h := by
    rw [Bool.eq_iff_iff, List.contains_iff_mem, List.contains_iff_mem]
    exact List.mem_map_of_injective (Handle.rename_injective hf)
  rw [addTo, addTo, hcontains, apply_ite (List.map (Handle.rename f)), List.map_append]
  rfl

theorem Wait.onLaunched_rename (w : Wait) (handles : List Handle) :
    (w.mapHandles (Handle.rename f)).onLaunched (handles.map (Handle.rename f))
      = (w.onLaunched handles).mapHandles (Handle.rename f) := by
  unfold onLaunched
  induction handles generalizing w with
  | nil => rfl
  | cons h rest ih =>
      have hadd : (w.mapHandles (Handle.rename f)).addLaunched (h.rename f)
          = (w.addLaunched h).mapHandles (Handle.rename f) := by
        simp only [addLaunched, mapHandles, addTo_rename hf]
      rw [List.map_cons, List.foldl_cons, List.foldl_cons, hadd, ih]

theorem Wait.onFinished_rename (w : Wait) (handles : List Handle) :
    (w.mapHandles (Handle.rename f)).onFinished (handles.map (Handle.rename f))
      = (w.onFinished handles).mapHandles (Handle.rename f) := by
  unfold onFinished
  induction handles generalizing w with
  | nil => rfl
  | cons h rest ih =>
      have hadd : (w.mapHandles (Handle.rename f)).addFinished (h.rename f)
          = (w.addFinished h).mapHandles (Handle.rename f) := by
        simp only [addFinished, mapHandles, addTo_rename hf]
      rw [List.map_cons, List.foldl_cons, List.foldl_cons, hadd, ih]

end Settings

namespace Operation

variable (op : Operation Scenario)

theorem configure_rename (p : Payload Scenario) :
    (op.rename f).configure (p.rename f) = (op.configure p).map (rename f) := by
  unfold configure
  rw [Payload.kind_rename]
  show op.expectKind p.kind >>= _ = _
  cases op.expectKind p.kind with
  | ok _ => rfl
  | error e => rfl

theorem configureCondition_rename (condition : Condition) :
    (op.rename f).configureCondition condition = (op.configureCondition condition).map (rename f) := by
  have hloop := op.configure_rename (f := f) (.loop condition)
  have hbranch := op.configure_rename (f := f) (.branch condition)
  have hkind : (op.rename f).kind = op.kind := rfl
  unfold configureCondition
  rw [hkind]
  cases op.kind with
  | loop => exact hloop
  | _ => exact hbranch

theorem configureBody_rename (body : Body) (handles : List Handle) :
    (op.rename f).configureBody body (handles.map (Handle.rename f))
      = (op.configureBody body handles).map (rename f) := by
  unfold configureBody
  show op.expectKind body.kind >>= _ = _
  cases op.expectKind body.kind with
  | ok _ => cases body <;> rfl
  | error e => rfl

end Operation

/-! ### Calls on a scenario -/

namespace Scenario

section Calls

variable (s : Scenario)

theorem handleAt_rename (f : Nat → Nat) (index : Nat) :
    (s.rename f).handleAt index = (s.handleAt index).rename f := by
  rw [rename_eq]
  rfl

theorem handles_rename (f : Nat → Nat) :
    (s.rename f).handles = s.handles.map (Handle.rename f) := by
  unfold handles
  rw [size_rename, List.map_map]
  exact List.map_congr_left fun index _ => s.handleAt_rename f index

theorem addArgument_rename (f : Nat → Nat) (name description : String) :
    (s.rename f).addArgument name description = (s.addArgument name description).rename f := by
  simp only [rename_eq, addArgument]

theorem addConstant_rename (f : Nat → Nat) (name : String) (value : Json) :
    (s.rename f).addConstant name value = (s.addConstant name value).rename f := by
  simp only [rename_eq, addConstant]

theorem addOperation_rename (f : Nat → Nat) (kind : Kind) (wait : Wait) :
    (s.rename f).addOperation kind (wait.mapHandles (Handle.rename f))
      = ((s.addOperation kind wait).1.rename f, (s.addOperation kind wait).2.rename f) := by
  unfold addOperation
  rw [handleAt_rename, size_rename]
  simp only [rename_eq, List.map_append]
  rfl

variable {s} (hf : Function.Injective f)

include hf

theorem owns_rename (h : Handle) : (s.rename f).owns (h.rename f) = s.owns h := by
  rw [Bool.eq_iff_iff, owns_iff, owns_iff, size_rename, rename_eq]
  simp only [Handle.rename, List.mem_map, exists_exists_and_eq_and, Ancestor.rename, hf.eq_iff]

theorem resolve_rename (h : Handle) : (s.rename f).resolve (h.rename f) = s.resolve h := by
  unfold resolve
  rw [owns_rename hf, rename_eq]
  rfl

theorem operation_rename (h : Handle) :
    (s.rename f).operation (h.rename f) = (s.operation h).map (Operation.rename f) := by
  have hname : (s.rename f).name = s.name := by rw [rename_eq]
  have hop : ∀ index : Nat, (s.rename f).operations[index]?
      = s.operations[index]?.map (Operation.rename f) := by
    intro index
    rw [rename_eq, List.getElem?_map]
  unfold operation
  rw [resolve_rename hf]
  cases s.resolve h with
  | error e => rfl
  | ok index =>
      simp only [hop, hname, bind, Except.bind]
      cases s.operations[index]? with
      | none => rfl
      | some op => rfl

/-- A change that does the same to renamed operations does the same to renamed scenarios. -/
theorem modifyOperation_rename (h : Handle)
    {change change' : Operation Scenario → Except ScenarioError (Operation Scenario)}
    (hchange : ∀ op, change' (op.rename f) = (change op).map (Operation.rename f)) :
    (s.rename f).modifyOperation (h.rename f) change'
      = (s.modifyOperation h change).map (rename f) := by
  unfold modifyOperation
  rw [operation_rename hf]
  cases s.operation h with
  | error e => rfl
  | ok op =>
      show change' (op.rename f) >>= _ = _
      rw [hchange]
      show _ = Except.map (rename f) (change op >>= _)
      cases change op with
      | error e => rfl
      | ok changed =>
          refine congrArg Except.ok ?_
          simp only [rename_eq, List.map_set]
          rfl

/-- **Which identities there are makes no difference to a build.** -/
theorem build_rename (s : Scenario) : (s.rename f).build = s.build := by
  induction s using embeddedInduction with
  | step s ih =>
      refine Alike.build_eq (g := Handle.rename f) ?_
      have hanswers : ∀ op ∈ s.operations, ∀ h ∈ op.handles,
          AnswersAlike (Handle.rename f) s (s.rename f) h :=
        fun _ _ h _ => ⟨rfl, owns_rename hf h⟩
      rw [rename_eq] at hanswers ⊢
      refine ⟨rfl, rfl, rfl, rfl, ?_, hanswers⟩
      refine List.forall₂_map_right_iff.mpr (List.forall₂_same.mpr fun op hop => ?_)
      cases hembedded : op.embedded? with
      | none =>
          refine ⟨s, ?_, by simp [hembedded]⟩
          rw [Operation.rename_of_none hembedded,
            Operation.withEmbedded_of_none ((op.embedded?_mapHandles _).trans hembedded)]
      | some sub =>
          refine ⟨sub.rename f, Operation.rename_of_embedded hembedded f, fun sub' hsub' => ?_⟩
          cases hembedded.symm.trans hsub'
          refine ⟨?_, ih op hop sub hembedded⟩
          rw [rename_eq]

theorem serialize_rename (s : Scenario) : (s.rename f).serialize = s.serialize := by
  rw [serialize, serialize, build_rename hf]

theorem toText_rename (s : Scenario) (pretty : Bool) :
    (s.rename f).toText pretty = s.toText pretty := by
  rw [toText, toText, serialize_rename hf]

end Calls

/-! ### Copies -/

theorem cloneOperation_rename {op : Operation Scenario} {n m : IdentityCounter}
    (hsub : ∀ sub, op.embedded? = some sub →
      (sub.rename f).clone.run m = ((sub.clone.run n).1.rename f, m + sub.family.length)) :
    (cloneOperation (op.rename f)).run m
      = (((cloneOperation op).run n).1.rename f, m + op.family.length) := by
  unfold cloneOperation Operation.family
  rw [Operation.embedded?_rename]
  cases hembedded : op.embedded? with
  | none => rfl
  | some sub =>
      show (let (copy, k) := (sub.rename f).clone.run m; ((op.rename f).withEmbedded copy, k)) = _
      rw [hsub sub hembedded]
      exact congrArg (·, m + sub.family.length)
        (Operation.withEmbedded_rename hembedded f (sub.clone.run n).1).symm

/-- The copies of operations, one after the other, and the identity after those that they take. -/
theorem cloneOperations_run_cons (op : Operation Scenario) (rest : List (Operation Scenario))
    (n : IdentityCounter) : (cloneOperations (op :: rest)).run n
      = (((cloneOperation op).run n).1
          :: ((cloneOperations rest).run ((cloneOperation op).run n).2).1,
        ((cloneOperations rest).run ((cloneOperation op).run n).2).2) := by
  rw [cloneOperations_cons]
  rfl

theorem cloneOperations_rename : ∀ (operations : List (Operation Scenario)),
    (∀ op ∈ operations, ∀ sub, op.embedded? = some sub → ∀ n m : IdentityCounter,
      (∀ k < sub.family.length, f (n + k) = m + k) →
      (sub.rename f).clone.run m = ((sub.clone.run n).1.rename f, m + sub.family.length)) →
    ∀ n m : IdentityCounter,
    (∀ k < (operations.flatMap Operation.family).length, f (n + k) = m + k) →
    (cloneOperations (operations.map (Operation.rename f))).run m
      = (((cloneOperations operations).run n).1.map (Operation.rename f),
        m + (operations.flatMap Operation.family).length) := by
  intro operations
  induction operations with
  | nil => intro _ n m _; rfl
  | cons op rest ih =>
      intro hsub n m hfits
      obtain ⟨hop, hrest⟩ := List.forall_mem_cons.mp hsub
      rw [List.flatMap_cons, List.length_append] at hfits ⊢
      have hfirst : (cloneOperation (op.rename f)).run m
          = (((cloneOperation op).run n).1.rename f, m + op.family.length) := by
        refine cloneOperation_rename fun sub hembedded => hop sub hembedded n m fun k hk => ?_
        have hfamily : op.family = sub.family := by rw [Operation.family, hembedded]
        exact hfits k (by rw [hfamily]; omega)
      have hnext : ((cloneOperation op).run n).2 = n + op.family.length :=
        (cloneOperation_spec fun sub _ => clone_family sub) n |>.2.next
      have hothers := ih hrest (n + op.family.length) (m + op.family.length) fun k hk => by
        have := hfits (op.family.length + k) (by omega)
        rwa [← Nat.add_assoc, ← Nat.add_assoc] at this
      rw [List.map_cons, cloneOperations_run_cons, cloneOperations_run_cons, hfirst, hnext]
      dsimp only
      rw [hothers, List.map_cons, Nat.add_assoc]

/-- **A copy of a renamed scenario is the renamed copy,** if the identities that it takes are those
that the identities of the other copy are renamed to. -/
theorem clone_rename (s : Scenario) : ∀ n m : IdentityCounter,
    (∀ k < s.family.length, f (n + k) = m + k) →
    (s.rename f).clone.run m = ((s.clone.run n).1.rename f, m + s.family.length) := by
  induction s using embeddedInduction with
  | step s ih =>
      intro n m hfits
      rw [family_eq, List.length_cons] at hfits ⊢
      have hfresh : f n = m := hfits 0 (Nat.succ_pos _)
      have hoperations := cloneOperations_rename s.operations ih (n + 1) (m + 1) fun k hk => by
        have := hfits (k + 1) (Nat.succ_lt_succ hk)
        rwa [Nat.add_comm k, ← Nat.add_assoc, ← Nat.add_assoc] at this
      rw [clone_run, clone_run, rename_eq, rename_eq]
      simp only [hoperations, hfresh, List.map_append, Ancestor.rename, size, List.length_map,
        List.map_cons, List.map_nil, Nat.add_assoc, Nat.add_comm 1]

end Scenario

end Testbed
