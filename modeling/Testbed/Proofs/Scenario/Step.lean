/-
What one step makes of a world.

Every step leaves a scenario that it does not let go of with its identity and its
ancestry, and with all of its operations in their places; an operation may have been
changed, and one may have been added at the end.  Scenarios that were not live before
are new ones without operations or copies of live ones, and have the next identities.
Whatever a step changes it also logs.

`Effect` says this once, for all kinds of steps; whatever holds along histories is
proved from it, without going through the kinds again.
-/
import Testbed.Proofs.Scenario.History
import Mathlib.Data.List.Perm.Subperm

namespace Testbed

namespace World

/-- A scenario before a step and after it. -/
structure Kept (more : Log) (s s' : Scenario) : Prop where
  identity : s'.identity = s.identity
  ancestry : s'.ancestry = s.ancestry
  size : s.size ≤ s'.size
  /-- Each operation is as it was, was changed, or was added. -/
  operations : ∀ p op', s'.operations[p]? = some op' →
    (∃ op, s.operations[p]? = some op
      ∧ (op' = op ∨ ∃ c, .changed ⟨s.identity, p⟩ c ∈ more ∧ c.apply op = .ok op'))
    ∨ (s.size ≤ p ∧ .added ⟨s.identity, p⟩ op' ∈ more)

theorem Kept.of_operations_eq {s s' : Scenario} (hidentity : s'.identity = s.identity)
    (hancestry : s'.ancestry = s.ancestry) (hoperations : s'.operations = s.operations)
    (more : Log) : Kept more s s' := by
  refine ⟨hidentity, hancestry, ?_, fun p op' hp => ?_⟩
  · exact Nat.le_of_eq (congrArg List.length hoperations).symm
  · rw [hoperations] at hp
    exact Or.inl ⟨op', hp, Or.inl rfl⟩

theorem Kept.refl (more : Log) (s : Scenario) : Kept more s s := .of_operations_eq rfl rfl rfl more

/-- Where a scenario that was not live before comes from. -/
inductive Fresh (w : World) (more : Log) : Scenario → Prop
  | created {s : Scenario} (ancestry : s.ancestry = []) (operations : s.operations = [])
      (logged : .created s.identity ∈ more) : Fresh w more s
  | copied {s copy : Scenario} (live : s ∈ w.live) (copyOf : Scenario.CopyOf s copy)
      (logged : .copied copy.identity s.identity s.size ∈ more) : Fresh w more copy

/-- What is to be said of an event once it has been logged. -/
def Justified (w w' : World) (fresh : List Scenario) : Event → Prop
  | .created s => s ∈ fresh.map Scenario.identity
  | .copied copy source size => copy ∈ fresh.map Scenario.identity
      ∧ ∃ s ∈ w.live, s.identity = source ∧ s.size = size
  | .added slot op => (∃ kind wait, op = .new kind wait)
      ∧ ∃ s ∈ w.live, s.identity = slot.scenario ∧ s.size = slot.position
  | .issued slot h => h = ⟨slot.scenario, slot.position⟩
      ∧ ∃ s ∈ w'.live, s.identity = slot.scenario ∧ slot.position < s.size
  | .changed _ _ => True

/-- What a step does: `more` is what it logs, `fresh` are the scenarios that it makes. -/
structure Effect (w w' : World) (more : Log) (fresh : List Scenario) : Prop where
  log : w'.log = w.log ++ more
  counter : w'.counter = w.counter + fresh.length
  identities : fresh.map Scenario.identity = List.range' w.counter fresh.length
  born : more.born = fresh.map Scenario.identity
  /-- No scenario comes to be live twice. -/
  once : (w'.live.map Scenario.identity).Subperm ((fresh ++ w.live).map Scenario.identity)
  origin : ∀ s' ∈ w'.live, s' ∈ fresh ∨ ∃ s ∈ w.live, Kept more s s'
  made : ∀ s ∈ fresh, Fresh w more s
  justified : ∀ e ∈ more, Justified w w' fresh e

/-! ### Steps that make no scenario -/

theorem identities_subperm {scenarios others : List Scenario} (h : others.Subperm scenarios) :
    (others.map Scenario.identity).Subperm (scenarios.map Scenario.identity) := by
  obtain ⟨part, hperm, hsub⟩ := h
  exact ⟨part.map Scenario.identity, hperm.map _, hsub.map _⟩

/-- Scenarios are let go of, or nothing happens to them. -/
theorem Effect.of_subperm {n : IdentityCounter} {scenarios others : List Scenario} {log : Log}
    (h : (others.flatMap Scenario.family).Subperm (scenarios.flatMap Scenario.family)) :
    Effect ⟨n, scenarios, log⟩ ⟨n, others, log⟩ [] [] := by
  refine ⟨(List.append_nil log).symm, rfl, rfl, rfl, identities_subperm h, ?_, by simp, by simp⟩
  intro s hs
  exact Or.inr ⟨s, h.subset hs, Kept.refl [] s⟩

/-- One scenario is put in the place of what it was before; `lost` are held no longer. -/
theorem Effect.of_kept {n : IdentityCounter} {s s' : Scenario} {lost rest : List Scenario}
    {log more : Log} (hkept : Kept more s s') (hborn : more.born = [])
    (hfamily : (s'.operations.flatMap Operation.family).Subperm
      (s.operations.flatMap Operation.family ++ lost.flatMap Scenario.family))
    (hjustified : ∀ e ∈ more, Justified ⟨n, s :: (lost ++ rest), log⟩
      ⟨n, s' :: rest, log ++ more⟩ [] e) :
    Effect ⟨n, s :: (lost ++ rest), log⟩ ⟨n, s' :: rest, log ++ more⟩ more [] := by
  have hlive : World.live ⟨n, s :: (lost ++ rest), log⟩
      = s :: (s.operations.flatMap Operation.family ++ lost.flatMap Scenario.family
        ++ rest.flatMap Scenario.family) := by
    rw [live, List.flatMap_cons, List.flatMap_append, Scenario.family_eq, List.cons_append,
      List.append_assoc]
  have hlive' : World.live ⟨n, s' :: rest, log ++ more⟩
      = s' :: (s'.operations.flatMap Operation.family ++ rest.flatMap Scenario.family) := by
    rw [live, List.flatMap_cons, Scenario.family_eq, List.cons_append]
  have hrest : (s'.operations.flatMap Operation.family ++ rest.flatMap Scenario.family).Subperm
      (s.operations.flatMap Operation.family ++ lost.flatMap Scenario.family
        ++ rest.flatMap Scenario.family) :=
    (List.subperm_append_right _).mpr hfamily
  refine ⟨rfl, rfl, rfl, hborn, ?_, ?_, by simp, hjustified⟩
  · rw [List.nil_append, hlive, hlive', List.map_cons, List.map_cons, hkept.identity]
    exact (List.subperm_cons _).mpr (identities_subperm hrest)
  · rw [hlive, hlive']
    intro t ht
    right
    rcases List.mem_cons.mp ht with rfl | ht
    · exact ⟨s, List.mem_cons_self, hkept⟩
    · exact ⟨t, List.mem_cons_of_mem _ (hrest.subset ht), Kept.refl more t⟩

theorem Effect.of_operations_eq {n : IdentityCounter} {s s' : Scenario} {rest : List Scenario}
    {log : Log} (hidentity : s'.identity = s.identity) (hancestry : s'.ancestry = s.ancestry)
    (hoperations : s'.operations = s.operations) :
    Effect ⟨n, s :: rest, log⟩ ⟨n, s' :: rest, log⟩ [] [] := by
  have hfamily : (s'.operations.flatMap Operation.family).Subperm
      (s.operations.flatMap Operation.family ++ [].flatMap Scenario.family) := by
    rw [hoperations, List.flatMap_nil, List.append_nil]
  have heffect : Effect ⟨n, s :: ([] ++ rest), log⟩ ⟨n, s' :: rest, log ++ []⟩ [] [] :=
    of_kept (.of_operations_eq hidentity hancestry hoperations []) rfl hfamily (by simp)
  rwa [List.append_nil] at heffect

theorem effect_add {n : IdentityCounter} {s : Scenario} {rest : List Scenario} {log : Log}
    (kind : Kind) (wait : Wait) :
    let grown := (s.addOperation kind wait).2
    let more : Log := [.added ⟨s.identity, s.size⟩ (.new kind wait),
      .issued ⟨s.identity, s.size⟩ (s.addOperation kind wait).1]
    Effect ⟨n, s :: rest, log⟩ ⟨n, grown :: rest, log ++ more⟩ more [] := by
  intro grown more
  have hoperations : grown.operations = s.operations ++ [.new kind wait] := rfl
  have hsize : grown.size = s.size + 1 := by
    rw [Scenario.size, hoperations, List.length_append]
    rfl
  have hkept : Kept more s grown := by
    refine ⟨rfl, rfl, by omega, fun p op' hp => ?_⟩
    by_cases hlt : p < s.size
    · rw [hoperations, List.getElem?_append_left hlt] at hp
      exact Or.inl ⟨op', hp, Or.inl rfl⟩
    · have hlast : p < grown.size := (List.getElem?_eq_some_iff.mp hp).1
      have hp' : p = s.size := by omega
      subst hp'
      rw [hoperations, Scenario.size, List.getElem?_concat_length] at hp
      cases hp
      exact Or.inr ⟨Nat.le_refl _, List.mem_cons_self⟩
  show Effect ⟨n, s :: ([] ++ rest), log⟩ ⟨n, grown :: rest, log ++ more⟩ more []
  refine Effect.of_kept hkept rfl ?_ ?_
  -- a new operation carries no scenario
  · rw [hoperations, List.flatMap_append, List.flatMap_nil]
    exact List.Subperm.refl _
  · intro e he
    rcases List.mem_cons.mp he with rfl | he
    · exact ⟨⟨kind, wait, rfl⟩, s,
        List.mem_flatMap.mpr ⟨s, List.mem_cons_self, Scenario.mem_family_self s⟩, rfl, rfl⟩
    · rw [List.mem_singleton.mp he]
      refine ⟨rfl, grown, ?_, rfl, ?_⟩
      · exact List.mem_flatMap.mpr ⟨grown, List.mem_cons_self, Scenario.mem_family_self grown⟩
      · show s.size < grown.size
        omega

/-- A changed operation holds no scenario but those of before and the one that was put in. -/
theorem family_set {operations : List (Operation Scenario)} {index : Nat}
    {op op' : Operation Scenario} {c : Change} (hop : operations[index]? = some op)
    (hchange : c.apply op = .ok op') :
    ((operations.set index op').flatMap Operation.family).Subperm
      (operations.flatMap Operation.family ++ c.embedded?.toList.flatMap Scenario.family) := by
  induction operations generalizing index with
  | nil => cases hop
  | cons first others ih =>
      cases index with
      | zero =>
          cases hop
          rw [List.set_cons_zero, List.flatMap_cons, List.flatMap_cons]
          -- what came with the change is listed last, and has to change places with the rest
          refine ((List.subperm_append_right _).mpr (Change.family_apply hchange).subperm).trans ?_
          rw [List.append_assoc, List.append_assoc]
          exact ((List.subperm_append_left _).mpr List.perm_append_comm.subperm)
      | succ index =>
          rw [List.set_cons_succ, List.flatMap_cons, List.flatMap_cons, List.append_assoc]
          exact (List.subperm_append_left _).mpr (ih hop)

theorem effect_change {n : IdentityCounter} {s changed : Scenario} {rest : List Scenario}
    {log : Log} {h : Handle} {c : Change} (hdone : s.modifyOperation h c.apply = .ok changed) :
    Effect ⟨n, s :: (c.embedded?.toList ++ rest), log⟩
      ⟨n, changed :: rest, log ++ [.changed ⟨s.identity, h.index⟩ c]⟩
      [.changed ⟨s.identity, h.index⟩ c] [] := by
  obtain ⟨op, op', -, hop, hchange, rfl⟩ := Scenario.modifyOperation_eq_ok.mp hdone
  refine Effect.of_kept ⟨rfl, rfl, ?_, fun p found hp => ?_⟩ rfl (family_set hop hchange) ?_
  · exact Nat.le_of_eq List.length_set.symm
  · left
    by_cases hindex : h.index = p
    · subst hindex
      rw [List.getElem?_set_self (List.getElem?_eq_some_iff.mp hop).1] at hp
      cases hp
      exact ⟨op, hop, Or.inr ⟨c, List.mem_singleton_self _, hchange⟩⟩
    · rw [List.getElem?_set_ne hindex] at hp
      exact ⟨found, hp, Or.inl rfl⟩
  · intro e he
    rw [List.mem_singleton.mp he]
    trivial

theorem effect_list {w : World} {s : Scenario} {position : Nat} {h : Handle} (hlive : s ∈ w.live)
    (hfound : s.handles[position]? = some h) :
    Effect w ⟨w.counter, w.scenarios, w.log ++ [.issued ⟨s.identity, position⟩ h]⟩
      [.issued ⟨s.identity, position⟩ h] [] := by
  refine ⟨rfl, rfl, rfl, rfl, List.Subperm.refl _, ?_, by simp, ?_⟩
  · intro t ht
    exact Or.inr ⟨t, ht, Kept.refl _ t⟩
  · intro e he
    rw [List.mem_singleton.mp he]
    rw [Scenario.handles, List.getElem?_map, Option.map_eq_some_iff] at hfound
    obtain ⟨p, hp, rfl⟩ := hfound
    obtain ⟨hlt, rfl⟩ := List.getElem?_eq_some_iff.mp hp
    rw [List.length_range] at hlt
    rw [List.getElem_range]
    exact ⟨rfl, s, hlive, rfl, hlt⟩

/-! ### Steps that make scenarios -/

theorem effect_create (w : World) (name description : String) :
    let s := ((Scenario.new name description).run w.counter).1
    Effect w ⟨w.counter + 1, s :: w.scenarios, w.log ++ [.created s.identity]⟩
      [.created s.identity] [s] := by
  intro s
  have hfamily : s.family = [s] := rfl
  refine ⟨rfl, rfl, rfl, rfl, ?_, ?_, ?_, ?_⟩
  · rw [live, List.flatMap_cons, hfamily]
    exact List.Subperm.refl _
  · intro t ht
    rw [live, List.flatMap_cons, hfamily] at ht
    rcases List.mem_append.mp ht with ht | ht
    · exact Or.inl ht
    · exact Or.inr ⟨t, ht, Kept.refl _ t⟩
  · intro t ht
    rw [List.mem_singleton.mp ht]
    exact .created rfl rfl List.mem_cons_self
  · intro e he
    rw [List.mem_singleton.mp he]
    exact List.mem_singleton_self _

theorem born_copies {s copy : Scenario} (h : s.family.length = copy.family.length) :
    (s.copies copy).born = copy.family.map Scenario.identity := by
  have hborn : (s.copies copy).born
      = ((s.family.zip copy.family).map Prod.snd).map Scenario.identity := by
    rw [Scenario.copies, Log.born, List.filterMap_map, List.map_map, ← List.filterMap_eq_map]
    rfl
  rw [hborn, List.map_snd_zip (Nat.le_of_eq h.symm)]

theorem effect_clone {w : World} {s : Scenario} (hlive : s ∈ w.live) :
    let copy := (s.clone.run w.counter).1
    Effect w ⟨(s.clone.run w.counter).2, copy :: w.scenarios, w.log ++ s.copies copy⟩
      (s.copies copy) copy.family := by
  intro copy
  have hfresh : Scenario.FreshCopies s.family copy.family w.counter (s.clone.run w.counter).2 :=
    Scenario.clone_family s w.counter
  have hlength : s.family.length = copy.family.length := hfresh.pairs.length_eq
  have hfamily : ∀ t ∈ s.family, t ∈ w.live := fun t ht => live_trans hlive ht
  refine ⟨rfl, ?_, ?_, born_copies hlength, ?_, ?_, ?_, ?_⟩
  · show (s.clone.run w.counter).2 = _
    rw [hfresh.next, hlength]
  · rw [hfresh.identities, hlength]
  · rw [live, List.flatMap_cons]
    exact List.Subperm.refl _
  · intro t ht
    rw [live, List.flatMap_cons] at ht
    rcases List.mem_append.mp ht with ht | ht
    · exact Or.inl ht
    · exact Or.inr ⟨t, ht, Kept.refl _ t⟩
  · intro t ht
    rw [← List.map_snd_zip (Nat.le_of_eq hlength.symm)] at ht
    obtain ⟨⟨original, t⟩, hpair, rfl⟩ := List.mem_map.mp ht
    exact .copied (hfamily original (List.of_mem_zip hpair).1)
      ((List.forall₂_iff_zip.mp hfresh.pairs).2 hpair) (List.mem_map_of_mem hpair)
  · intro e he
    obtain ⟨⟨original, t⟩, hpair, rfl⟩ := List.mem_map.mp he
    obtain ⟨horiginal, ht⟩ := List.of_mem_zip hpair
    exact ⟨List.mem_map_of_mem ht, original, hfamily original horiginal, rfl, rfl⟩

/-- **Every step has an effect of this one form.** -/
theorem Step.effect {w w' : World} (h : Step w w') : ∃ more fresh, Effect w w' more fresh := by
  cases h with
  | create name description made =>
      cases made
      exact ⟨_, _, effect_create w name description⟩
  | clone live made =>
      obtain ⟨rfl, rfl⟩ := Prod.ext_iff.mp made
      exact ⟨_, _, effect_clone live⟩
  | argument name description => exact ⟨_, _, .of_operations_eq rfl rfl rfl⟩
  | constant name value => exact ⟨_, _, .of_operations_eq rfl rfl rfl⟩
  | add kind made known added =>
      cases added
      exact ⟨_, _, effect_add kind _⟩
  | list live found => exact ⟨_, _, effect_list live found⟩
  | change known offered done => exact ⟨_, _, effect_change done⟩
  | refuse refused =>
      refine ⟨_, _, Effect.of_subperm ?_⟩
      rw [List.flatMap_cons, List.flatMap_cons, List.flatMap_append]
      exact ((List.sublist_append_right _ _).append_left _).subperm
  | drop =>
      refine ⟨_, _, Effect.of_subperm ?_⟩
      rw [List.flatMap_cons]
      exact (List.sublist_append_right _ _).subperm
  | reorder perm => exact ⟨_, _, .of_subperm (perm.symm.flatMap_right _).subperm⟩

end World

end Testbed
