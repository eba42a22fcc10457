/-
What the checks of a document come to.

The checks look functions up by number, in tables in which the last function of a
number wins, and they look for cycles by position.  Once every number is a position
all of these agree: the table of kinds is the list of functions, and the graph of
positions is the relation `Waits`.  A document whose numbers are not its positions is
refused for that alone, so nothing has to be said about the other checks on it.

Each list of errors gets one lemma that says when it is empty; `validate_isOk_iff`
puts them together.
-/
import Testbed.Proofs.Keyed
import Testbed.Proofs.Placeholder
import Testbed.Proofs.WaitGraph

namespace Testbed.Document

/-- Every function has its position as number. -/
def Numbered (d : Document) : Prop :=
  ∀ (i : Nat) (f : Function), d.functions[i]? = some f → f.id = i

/-- No two functions have the same number. -/
def Distinct (d : Document) : Prop := (d.functions.map Function.id).Nodup

/-- The function at a position waits on the function at another one. -/
def Waits (d : Document) (i j : Nat) : Prop :=
  ∃ f g : Function,
    d.functions[i]? = some f ∧ d.functions[j]? = some g ∧ g.id ∈ f.wait.references

/-- A function names a number: in its wait, in its bodies or as what it stops. -/
def Function.Names (f : Function) (id : Nat) : Prop :=
  id ∈ f.wait.launched ∨ id ∈ f.wait.finished ∨ id ∈ f.members ∨ id ∈ f.action.targets

/-- What a document without errors satisfies. -/
structure Sound (d : Document) : Prop where
  numbered : d.Numbered
  /-- No name is both an argument and a constant. -/
  names : ∀ name, ¬ (name ∈ Keyed.keys d.arguments ∧ name ∈ Keyed.keys d.constants)
  /-- Every number that a function names is that of a function. -/
  references : ∀ f ∈ d.functions, ∀ id, f.Names id → id < d.functions.length
  selfWaits : ∀ f ∈ d.functions, f.id ∉ f.wait.launched ∧ f.id ∉ f.wait.finished
  acyclic : ∀ i, ¬ Relation.TransGen d.Waits i i
  /-- Every function that is stopped has the kind that stopping it takes. -/
  targets : ∀ f ∈ d.functions, ∀ expected, f.action.kind.stopTarget? = some expected →
    ∀ id ∈ f.action.targets, ∀ g, d.functions[id]? = some g → g.action.kind = expected
  /-- Every string of the form `$name` names something declared. -/
  declared : ∀ f ∈ d.functions, ∀ name, reference name ∈ f.texts → IsIdentifier name →
    name ∈ Keyed.keys d.arguments ∨ name ∈ Keyed.keys d.constants

variable {d : Document}

/-! ### Numbers as positions -/

theorem idErrors_eq_nil_iff : ∀ (functions : List Function) (position : Nat),
    idErrors position functions = []
      ↔ ∀ i f, functions[i]? = some f → f.id = position + i := by
  intro functions
  induction functions with
  | nil => intro position; simp [idErrors]
  | cons head rest ih =>
      intro position
      rw [idErrors, List.append_eq_nil_iff, ih]
      refine ⟨?_, ?_⟩
      · rintro ⟨hhead, hrest⟩ i f hf
        cases i with
        | zero =>
            have hid : head.id = position := by
              by_contra hc
              simp [hc] at hhead
            rw [← Option.some.inj hf, hid, Nat.add_zero]
        | succ i =>
            rw [hrest i f hf]
            omega
      · intro h
        refine ⟨if_pos (h 0 head rfl), fun i f hf => ?_⟩
        rw [h (i + 1) f hf]
        omega

namespace Numbered

/-- A function is found at its number. -/
theorem getElem?_id (h : d.Numbered) {f : Function} (hf : f ∈ d.functions) :
    d.functions[f.id]? = some f := by
  obtain ⟨i, hi⟩ := List.mem_iff_getElem?.mp hf
  rw [h i f hi, hi]

/-- A search for a number comes to the function at that position. -/
theorem find?_eq (h : d.Numbered) (id : Nat) (order : List Function)
    (horder : ∀ f, f ∈ order ↔ f ∈ d.functions) :
    order.find? (fun f => f.id == id) = d.functions[id]? := by
  cases hfound : order.find? (fun f => f.id == id) with
  | none =>
      cases hget : d.functions[id]? with
      | none => rfl
      | some f =>
          have hmem : f ∈ order := (horder f).mpr (List.mem_of_getElem? hget)
          have hne := List.find?_eq_none.mp hfound f hmem
          simp [h id f hget] at hne
  | some f =>
      have hid : f.id = id := by simpa using List.find?_some hfound
      rw [← hid, h.getElem?_id ((horder f).mp (List.mem_of_find?_eq_some hfound))]

theorem function?_eq (h : d.Numbered) (id : Nat) : d.function? id = d.functions[id]? :=
  h.find?_eq id d.functions fun _ => Iff.rfl

theorem kindOf?_eq (h : d.Numbered) (id : Nat) :
    d.kindOf? id = (d.functions[id]?).map fun f => f.action.kind := by
  rw [kindOf?, h.find?_eq id _ fun f => List.mem_reverse]

theorem kindOf?_isNone (h : d.Numbered) (id : Nat) :
    (d.kindOf? id).isNone = true ↔ d.functions.length ≤ id := by
  rw [h.kindOf?_eq, Option.isNone_map, Option.isNone_iff_eq_none, List.getElem?_eq_none_iff]

theorem distinct (h : d.Numbered) : d.Distinct := by
  have hids : d.functions.map Function.id = List.range d.functions.length := by
    refine List.ext_getElem? fun i => ?_
    rw [List.getElem?_map]
    cases hf : d.functions[i]? with
    | none => simpa using hf
    | some f => simp [h i f hf, (List.getElem?_eq_some_iff.mp hf).1]
  rw [Distinct, hids]
  exact List.nodup_range

end Numbered

/-! ### Positions of numbers -/

/-- The functions at two positions have two numbers. -/
theorem Distinct.position_unique (h : d.Distinct) {i j : Nat} {f g : Function}
    (hf : d.functions[i]? = some f) (hg : d.functions[j]? = some g) (hid : f.id = g.id) :
    i = j := by
  have hi : (d.functions.map Function.id)[i]? = some f.id := by simp [hf]
  have hj : (d.functions.map Function.id)[j]? = some f.id := by simp [hg, hid]
  have hlt := (List.getElem?_eq_some_iff.mp hi).1
  exact (List.getElem?_inj hlt h).mp (hi.trans hj.symm)

/-- A number is found at the position of the function that has it. -/
theorem Distinct.positionOf?_eq_some_iff (h : d.Distinct) (id j : Nat) :
    d.positionOf? id = some j ↔ ∃ g, d.functions[j]? = some g ∧ g.id = id := by
  have hfound : ∀ {j}, d.positionOf? id = some j → ∃ g, d.functions[j]? = some g ∧ g.id = id := by
    intro j hj
    obtain ⟨i, hi, rfl⟩ := Option.map_eq_some_iff.mp hj
    obtain ⟨hlt, hid, -⟩ := List.findIdx?_eq_some_iff_getElem.mp hi
    rw [List.getElem_reverse, beq_iff_eq] at hid
    exact ⟨_, List.getElem?_eq_getElem _, hid⟩
  refine ⟨hfound, ?_⟩
  intro hg
  obtain ⟨g, hg, rfl⟩ := hg
  -- the search from the end comes to some function of that number, and there is only one
  have hsome : (d.positionOf? g.id).isSome = true := by
    rw [positionOf?, Option.isSome_map, List.findIdx?_isSome, List.any_eq_true]
    exact ⟨g, List.mem_reverse.mpr (List.mem_of_getElem? hg), beq_self_eq_true g.id⟩
  obtain ⟨i, hi⟩ := Option.isSome_iff_exists.mp hsome
  obtain ⟨f, hf, hid⟩ := hfound hi
  rw [hi, h.position_unique hf hg hid]

/-! ### Names -/

theorem nameErrors_eq_nil_iff :
    d.nameErrors = []
      ↔ ∀ name, ¬ (name ∈ Keyed.keys d.arguments ∧ name ∈ Keyed.keys d.constants) := by
  rw [nameErrors, List.map_eq_nil_iff, List.filter_eq_nil_iff]
  refine ⟨?_, ?_⟩
  · rintro h name ⟨harg, hconst⟩
    exact h name harg ((Keyed.has_iff name d.constants).mpr hconst)
  · intro h name harg hconst
    exact h name ⟨harg, (Keyed.has_iff name d.constants).mp hconst⟩

/-! ### References -/

/-- The references of a function are the numbers that it names. -/
theorem Function.mem_references_iff {f : Function} {id : Nat} :
    (∃ field, (field, id) ∈ f.references) ↔ f.Names id := by
  obtain ⟨_, _, action, wait⟩ := f
  cases action <;>
    simp [Function.references, Function.Names, Function.members, Action.bodies?, Action.targets,
      exists_or]

theorem danglingErrors_eq_nil_iff (h : d.Numbered) (f : Function) :
    d.danglingErrors f = [] ↔ ∀ id, f.Names id → id < d.functions.length := by
  rw [danglingErrors, List.map_eq_nil_iff, List.filter_eq_nil_iff]
  refine ⟨?_, ?_⟩
  · intro hnone id hid
    obtain ⟨field, hmem⟩ := Function.mem_references_iff.mpr hid
    by_contra hc
    exact hnone (field, id) hmem ((h.kindOf?_isNone id).mpr (Nat.not_lt.mp hc))
  · rintro hall ⟨field, id⟩ hmem hnone
    have hlt := hall id (Function.mem_references_iff.mp ⟨field, hmem⟩)
    have hle := (h.kindOf?_isNone id).mp hnone
    omega

theorem selfWaitErrors_eq_nil_iff (f : Function) :
    selfWaitErrors f = [] ↔ f.id ∉ f.wait.launched ∧ f.id ∉ f.wait.finished := by
  unfold selfWaitErrors
  by_cases hmem : f.id ∈ f.wait.references
  · rw [if_pos (by simpa using hmem)]
    rw [Wait.references, List.mem_append] at hmem
    simp only [List.cons_ne_nil, false_iff, not_and_or, not_not]
    exact hmem
  · rw [if_neg (by simpa using hmem)]
    rw [Wait.references, List.mem_append, not_or] at hmem
    exact iff_of_true rfl hmem

theorem targetErrors_eq_nil_iff (h : d.Numbered) (f : Function) :
    d.targetErrors f = [] ↔ ∀ expected, f.action.kind.stopTarget? = some expected →
      ∀ id ∈ f.action.targets, ∀ g, d.functions[id]? = some g → g.action.kind = expected := by
  unfold targetErrors
  cases f.action.kind.stopTarget? with
  | none => simp
  | some expected =>
      simp only [List.filterMap_eq_nil_iff, Option.some.injEq, forall_eq', h.kindOf?_eq]
      refine forall_congr' fun id => imp_congr_right fun _ => ?_
      cases d.functions[id]? with
      | none => simp
      | some g => simp

theorem referenceErrors_eq_nil_iff (h : d.Numbered) :
    d.referenceErrors = [] ↔ ∀ f ∈ d.functions, (∀ id, f.Names id → id < d.functions.length)
      ∧ (f.id ∉ f.wait.launched ∧ f.id ∉ f.wait.finished)
      ∧ ∀ expected, f.action.kind.stopTarget? = some expected →
        ∀ id ∈ f.action.targets, ∀ g, d.functions[id]? = some g → g.action.kind = expected := by
  rw [referenceErrors, List.flatMap_eq_nil_iff]
  refine forall_congr' fun f => imp_congr_right fun _ => ?_
  rw [List.append_eq_nil_iff, List.append_eq_nil_iff, danglingErrors_eq_nil_iff h,
    selfWaitErrors_eq_nil_iff, targetErrors_eq_nil_iff h, and_assoc]

/-! ### Cycles -/

/-- The graph of positions is the relation `Waits` without the functions that wait on themselves. -/
theorem Distinct.waits_waitGraph_iff (h : d.Distinct) (i j : Nat) :
    d.waitGraph.Waits i j ↔ d.Waits i j ∧ j ≠ i := by
  have hlength : d.waitGraph.length = d.functions.length := List.length_mapIdx
  unfold WaitGraph.Waits Waits
  rw [hlength, waitGraph, List.getD_eq_getElem?_getD, List.getElem?_mapIdx]
  cases hf : d.functions[i]? with
  | none => simp
  | some f =>
      simp only [Option.map_some, Option.getD_some, dependencies, List.mem_filter,
        List.mem_filterMap, h.positionOf?_eq_some_iff, bne_iff_ne]
      refine ⟨?_, ?_⟩
      · intro hw
        obtain ⟨⟨⟨id, hid, g, hg, rfl⟩, hne⟩, -⟩ := hw
        exact ⟨⟨f, g, rfl, hg, hid⟩, hne⟩
      · intro hw
        obtain ⟨⟨f', g, hf', hg, hmem⟩, hne⟩ := hw
        cases hf'
        exact ⟨⟨⟨g.id, hmem, g, hg, rfl⟩, hne⟩, (List.getElem?_eq_some_iff.mp hg).1⟩

/-- Without functions that wait on themselves the graph of positions is the relation `Waits`. -/
theorem waits_waitGraph_iff (h : d.Numbered)
    (hself : ∀ f ∈ d.functions, f.id ∉ f.wait.launched ∧ f.id ∉ f.wait.finished) (i j : Nat) :
    d.waitGraph.Waits i j ↔ d.Waits i j := by
  rw [h.distinct.waits_waitGraph_iff]
  refine and_iff_left_of_imp fun hw => ?_
  obtain ⟨f, g, hf, hg, hmem⟩ := hw
  rintro rfl
  cases hf.symm.trans hg
  have hno := hself f (List.mem_of_getElem? hf)
  exact (List.mem_append.mp hmem).elim hno.1 hno.2

theorem cycleErrors_eq_nil_iff : d.cycleErrors = [] ↔ d.waitGraph.Acyclic := by
  rw [← WaitGraph.findCycle_eq_none_iff]
  unfold cycleErrors
  cases d.waitGraph.findCycle <;> simp

theorem acyclic_waitGraph_iff (h : d.Numbered)
    (hself : ∀ f ∈ d.functions, f.id ∉ f.wait.launched ∧ f.id ∉ f.wait.finished) :
    d.waitGraph.Acyclic ↔ ∀ i, ¬ Relation.TransGen d.Waits i i := by
  have heq : d.waitGraph.Waits = d.Waits := by
    funext i j
    exact propext (waits_waitGraph_iff h hself i j)
  rw [WaitGraph.Acyclic, heq]

/-! ### Tokens -/

theorem declares_iff (name : String) :
    d.declares name = true
      ↔ name ∈ Keyed.keys d.arguments ∨ name ∈ Keyed.keys d.constants := by
  rw [declares, Bool.or_eq_true, Keyed.has_iff, Keyed.has_iff]

theorem tokenErrors_eq_nil_iff :
    d.tokenErrors = [] ↔ ∀ f ∈ d.functions, ∀ name, reference name ∈ f.texts →
      IsIdentifier name → name ∈ Keyed.keys d.arguments ∨ name ∈ Keyed.keys d.constants := by
  rw [tokenErrors, List.flatMap_eq_nil_iff]
  refine forall_congr' fun f => imp_congr_right fun _ => ?_
  rw [undeclaredErrors, List.map_eq_nil_iff, List.filter_eq_nil_iff]
  refine forall_congr' fun name => ?_
  rw [Function.mem_names_iff, and_imp, ← declares_iff]
  simp

theorem undeclaredToken_notMem_idErrors (id : Nat) (name : String) : ∀ (functions : List Function)
    (position : Nat), .undeclaredToken id name ∉ idErrors position functions := by
  intro functions
  induction functions with
  | nil => intro position; exact List.not_mem_nil
  | cons f rest ih =>
      intro position h
      rw [idErrors] at h
      rcases List.mem_append.mp h with h | h
      · split at h <;> simp at h
      · exact ih _ h

/-- The undeclared names that are reported are those of which a function has a reference. -/
theorem undeclaredToken_mem_iff {id : Nat} {name : String} :
    .undeclaredToken id name ∈ d.validate.errors
      ↔ ∃ f ∈ d.functions, f.id = id ∧ (reference name ∈ f.texts ∧ IsIdentifier name)
        ∧ ¬ (name ∈ Keyed.keys d.arguments ∨ name ∈ Keyed.keys d.constants) := by
  have hids := undeclaredToken_notMem_idErrors id name d.functions 0
  have hnames : .undeclaredToken id name ∉ d.nameErrors := by simp [nameErrors]
  have hreferences : .undeclaredToken id name ∉ d.referenceErrors := by
    unfold referenceErrors danglingErrors selfWaitErrors targetErrors
    grind
  have hcycles : .undeclaredToken id name ∉ d.cycleErrors := by
    unfold cycleErrors
    split <;> simp
  simp only [validate, List.mem_append, hids, hnames, hreferences, hcycles, false_or, tokenErrors,
    List.mem_flatMap, undeclaredErrors, List.mem_map, List.mem_filter, Function.mem_names_iff,
    ValidationError.undeclaredToken.injEq, Bool.not_eq_true', ← Bool.not_eq_true, declares_iff]
  refine exists_congr fun f => and_congr_right fun _ => ?_
  refine ⟨?_, ?_⟩
  · rintro ⟨_, ⟨hname, hundeclared⟩, hid, rfl⟩
    exact ⟨hid, hname, hundeclared⟩
  · rintro ⟨hid, hname, hundeclared⟩
    exact ⟨name, ⟨hname, hundeclared⟩, hid, rfl⟩

/-! ### All checks -/

theorem isOk_iff_errors :
    d.validate.isOk = true ↔ idErrors 0 d.functions = [] ∧ d.nameErrors = []
      ∧ d.referenceErrors = [] ∧ d.cycleErrors = [] ∧ d.tokenErrors = [] := by
  simp only [ValidationReport.isOk, validate, List.isEmpty_iff, List.append_eq_nil_iff, and_assoc]

theorem numbered_iff : idErrors 0 d.functions = [] ↔ d.Numbered := by
  rw [idErrors_eq_nil_iff]
  simp only [Nat.zero_add, Numbered]

theorem isOk_iff_sound : d.validate.isOk = true ↔ d.Sound := by
  rw [isOk_iff_errors, numbered_iff, nameErrors_eq_nil_iff, cycleErrors_eq_nil_iff,
    tokenErrors_eq_nil_iff]
  refine ⟨?_, ?_⟩
  · intro h
    obtain ⟨hnum, hnames, hrefs, hcycles, htokens⟩ := h
    have hall := (referenceErrors_eq_nil_iff hnum).mp hrefs
    have hself := fun f hf => (hall f hf).2.1
    exact ⟨hnum, hnames, fun f hf => (hall f hf).1, hself,
      (acyclic_waitGraph_iff hnum hself).mp hcycles, fun f hf => (hall f hf).2.2, htokens⟩
  · intro h
    exact ⟨h.numbered, h.names, (referenceErrors_eq_nil_iff h.numbered).mpr fun f hf =>
        ⟨h.references f hf, h.selfWaits f hf, h.targets f hf⟩,
      (acyclic_waitGraph_iff h.numbered h.selfWaits).mpr h.acyclic, h.declared⟩

/-- The functions of a sound document can be put in an order in which each comes after all that
it waits on. -/
theorem Sound.exists_order (h : d.Sound) :
    ∃ order : List Nat, order.Perm (List.range d.functions.length)
      ∧ ∀ i j, d.Waits i j → order.idxOf j < order.idxOf i := by
  obtain ⟨order, hperm, hlater⟩ :=
    WaitGraph.exists_order ((acyclic_waitGraph_iff h.numbered h.selfWaits).mpr h.acyclic)
  have hlength : d.waitGraph.length = d.functions.length := List.length_mapIdx
  refine ⟨order, hlength ▸ hperm, fun i j hw => ?_⟩
  have hi : i < d.waitGraph.length := by
    obtain ⟨f, -, hf, -⟩ := hw
    rw [hlength]
    exact (List.getElem?_eq_some_iff.mp hf).1
  exact hlater i j hi ((waits_waitGraph_iff h.numbered h.selfWaits i j).mpr hw)

/--
**A document has no errors exactly if it is sound.**

Then its functions can be run in an order in which each comes after all that it waits on, and
looking a function up by number gives the one at that position.
-/
theorem validate_isOk_iff (d : Document) :
    (d.validate.isOk = true ↔ d.Sound)
      ∧ (d.validate.isOk = true →
        (∃ order : List Nat, order.Perm (List.range d.functions.length)
          ∧ ∀ i j, d.Waits i j → order.idxOf j < order.idxOf i)
        ∧ ∀ i, d.function? i = d.functions[i]?) := by
  refine ⟨isOk_iff_sound, fun h => ?_⟩
  have hsound := isOk_iff_sound.mp h
  exact ⟨hsound.exists_order, hsound.numbered.function?_eq⟩

/-- A job that runs at a rate, what stops it, and a reboot that follows. -/
def stopThenReboot : Document :=
  ⟨"Stop then reboot", "", [("agent", .string "Where the job runs")], [("rate", .ofNat 5)],
    [⟨0, "#0", .startJob ⟨.string "$agent", .integer 0, none,
        [("iperf3", .object [("rate", .string "$rate")])]⟩, .immediate⟩,
      ⟨1, "#1", .stopJob 0, ⟨.integer 10, [0], []⟩⟩,
      ⟨2, "#2", .reboot (.string "$agent"), ⟨.integer 0, [0], [1]⟩⟩]⟩

theorem validate_stopThenReboot :
    stopThenReboot.validate.isOk = true
      ∧ stopThenReboot.Sound
      ∧ (∃ order : List Nat, order.Perm (List.range stopThenReboot.functions.length)
        ∧ ∀ i j, stopThenReboot.Waits i j → order.idxOf j < order.idxOf i)
      ∧ ∀ i, stopThenReboot.function? i = stopThenReboot.functions[i]? := by
  have hlater : ∀ i j, stopThenReboot.waitGraph.Waits i j → j < i := by
    intro i j hw
    rw [show stopThenReboot.waitGraph = [[], [0], [0, 1]] from by decide] at hw
    obtain ⟨hmem, -⟩ := hw
    match i with
    | 0 => simp at hmem
    | 1 => simp at hmem; omega
    | 2 => simp at hmem; omega
    | i + 3 => simp at hmem
  have hok : stopThenReboot.validate.isOk = true :=
    isOk_iff_errors.mpr ⟨by decide, by decide, by decide,
      cycleErrors_eq_nil_iff.mpr (WaitGraph.acyclic_of_lt hlater), by decide⟩
  obtain ⟨hsound, hrest⟩ := validate_isOk_iff stopThenReboot
  obtain ⟨horder, hfunction⟩ := hrest hok
  exact ⟨hok, hsound.mp hok, horder, hfunction⟩

end Testbed.Document
