/-
Warnings on bodies.

They are found in one pass over the functions.  The pass notes each branch and each loop
with nothing to run, and keeps a table with an entry for each number that stands in a body:
the numbers of the functions that have it.  The table is a hash map, so it is read in an
order of its own; what is read is cut down to the entries with several owners and sorted.

The order in which the table is read leaves no trace.  After each function the table is known
outright (`owners_bodyPass`): its keys are the members so far, each in its first place, and the
entry of a member collects the owners so far.  So no two entries have one key, and sorted by
key they stand in one order only.  That is the order in which the checks list the members, so
the pass reports what the checks do.
-/
import Mathlib.Data.List.Perm.Basic
import Mathlib.Data.List.Sort
import Testbed.Proofs.FirstPlaces
import Testbed.Validation

namespace Testbed.Document

/-! ### The pass over the functions -/

/-- The owners of members of bodies, by member. -/
abbrev OwnerTable : Type := List (Nat × List Nat)

/-- Adds an owner to the entry of a member, unless it is there.  A member without an entry gets
one. -/
def addOwner (owner : Nat) : OwnerTable → (member : Nat) → OwnerTable
  | [], member => [(member, [owner])]
  | (key, owners) :: rest, member =>
    if key = member then (key, appendNew owners owner) :: rest
    else (key, owners) :: addOwner owner rest member

/-- What a pass over functions has collected. -/
structure BodyPass where
  warnings : List ValidationWarning
  owners : OwnerTable

/-- The pass goes over one more function. -/
def BodyPass.visit (p : BodyPass) (f : Function) : BodyPass :=
  match f.action.bodies? with
  | some (first, second) =>
    { warnings :=
        if first.isEmpty && second.isEmpty then p.warnings ++ [.emptyBodies f.id f.action.kind]
        else p.warnings
      owners := (first ++ second).foldl (addOwner f.id) p.owners }
  | none => p

/-- What a pass over all functions of a document collects. -/
def bodyPass (functions : List Function) : BodyPass := functions.foldl BodyPass.visit ⟨[], []⟩

/-- The reports of the members with several owners, by member, from a table that is read in
some order. -/
def sharedIn (order : OwnerTable) : List ValidationWarning :=
  ((order.filter fun entry => 1 < entry.2.length).mergeSort fun a b => a.1 ≤ b.1).map fun entry =>
    .sharedBody entry.1 entry.2

/-- The warnings on bodies, where the table of owners is read in some order. -/
def bodyWarningsIn (d : Document) (order : OwnerTable) : List ValidationWarning :=
  (bodyPass d.functions).warnings ++ sharedIn order

/-! ### What is reported -/

/-- A branch or a loop with nothing to run. -/
def Function.idle (f : Function) : Bool := f.action.bodies? == some ([], [])

/-- The functions that have a member in a body. -/
def carriers (functions : List Function) (member : Nat) : List Function :=
  functions.filter fun f => f.members.contains member

/-- Functions of different numbers have the member in their bodies. -/
def Shared (d : Document) (member : Nat) : Prop :=
  ∃ f ∈ carriers d.functions member, ∃ g ∈ carriers d.functions member, f.id ≠ g.id

/-- The numbers of the functions that have a member, as they are collected one by one. -/
def ownersAmong (functions : List Function) (member : Nat) : List Nat :=
  ((carriers functions member).map Function.id).foldl appendNew []

variable {d : Document}

/-! ### Owners -/

theorem foldl_appendNew (items : List Nat) : items.foldl appendNew [] = items.eraseDups := by
  induction items using List.reverseRecOn with
  | nil => rfl
  | append_singleton items a ih =>
      rw [List.foldl_concat, ih]
      exact FirstPlaces.add_eraseDups items a

theorem ownersOf_eq (d : Document) (member : Nat) :
    d.ownersOf member = ((carriers d.functions member).map Function.id).eraseDups :=
  foldl_appendNew _

theorem ownersAmong_concat (functions : List Function) (f : Function) (member : Nat) :
    ownersAmong (functions ++ [f]) member
      = if member ∈ f.members then appendNew (ownersAmong functions member) f.id
        else ownersAmong functions member := by
  simp only [ownersAmong, carriers, List.filter_append, List.map_append, List.foldl_append]
  by_cases hmem : member ∈ f.members
  · simp [hmem]
  · simp [hmem]

/-- Who adds itself twice is there once. -/
theorem appendNew_appendNew (found : List Nat) (n : Nat) :
    appendNew (appendNew found n) n = appendNew found n := by
  by_cases hmem : n ∈ found
  · simp [appendNew, hmem]
  · simp [appendNew, hmem]

/-! ### The table -/

/-- The table with a key for each of some members and the entries that a function gives. -/
def tableOf (keys : List Nat) (entry : Nat → List Nat) : OwnerTable :=
  keys.map fun key => (key, entry key)

/-- An owner is added to one entry and to no other. -/
theorem addOwner_tableOf (owner member : Nat) (entry : Nat → List Nat) {keys : List Nat}
    (hkeys : keys.Nodup) :
    addOwner owner (tableOf keys entry) member
      = if member ∈ keys then
          tableOf keys fun key => if key = member then appendNew (entry key) owner else entry key
        else tableOf keys entry ++ [(member, [owner])] := by
  induction keys with
  | nil => rfl
  | cons key rest ih =>
      obtain ⟨hnew, hrest⟩ := List.nodup_cons.mp hkeys
      simp only [tableOf, List.map_cons, addOwner]
      by_cases hkey : key = member
      · subst hkey
        have hothers : rest.map (fun k =>
            (k, if k = key then appendNew (entry k) owner else entry k))
              = rest.map fun k => (k, entry k) := by
          refine List.map_congr_left fun k hk => ?_
          rw [if_neg (ne_of_mem_of_not_mem hk hnew)]
        simp [hothers]
      · have hmem : member ∈ key :: rest ↔ member ∈ rest := by
          simp [Ne.symm hkey]
        have ih := ih hrest
        simp only [tableOf] at ih
        simp only [if_neg hkey, hmem, ih]
        split <;> rfl

/-- The members of one function are added one after the other.  A member that stands there
several times counts once, and one that has no entry yet is like one with an empty entry. -/
theorem foldl_addOwner (owner : Nat) (before members : List Nat) (entry : Nat → List Nat)
    (hentry : ∀ key, key ∉ before → entry key = []) :
    members.foldl (addOwner owner) (tableOf before.eraseDups entry)
      = tableOf (before ++ members).eraseDups fun key =>
          if key ∈ members then appendNew (entry key) owner else entry key := by
  induction members using List.reverseRecOn with
  | nil => simp
  | append_singleton members m ih =>
      rw [List.foldl_concat, ih, addOwner_tableOf _ _ _ (FirstPlaces.nodup_eraseDups _),
        ← List.append_assoc, FirstPlaces.eraseDups_concat]
      simp only [List.mem_eraseDups]
      by_cases hmem : m ∈ before ++ members
      · rw [if_pos hmem, if_pos hmem]
        refine List.map_congr_left fun key _ => ?_
        by_cases hkey : key = m
        · subst hkey
          by_cases hthere : key ∈ members
          · simp [hthere, appendNew_appendNew]
          · simp [hthere]
        · simp [hkey]
      · rw [if_neg hmem, if_neg hmem]
        obtain ⟨hbefore, hmembers⟩ := not_or.mp (mt List.mem_append.mpr hmem)
        have hold : tableOf (before ++ members).eraseDups
            (fun key => if key ∈ members then appendNew (entry key) owner else entry key)
              = tableOf (before ++ members).eraseDups fun key =>
                  if key ∈ members ++ [m] then appendNew (entry key) owner else entry key := by
          refine List.map_congr_left fun key hkey => ?_
          have hne : key ≠ m := fun heq => hmem (heq ▸ List.mem_eraseDups.mp hkey)
          simp [hne]
        rw [hold]
        simp [tableOf, hentry m hbefore, appendNew]

/-- A number that stands in no body has no owners. -/
theorem ownersAmong_of_not_mem {functions : List Function} {member : Nat}
    (h : member ∉ functions.flatMap Function.members) : ownersAmong functions member = [] := by
  have hnone : carriers functions member = [] := by
    refine List.filter_eq_nil_iff.mpr fun f hf hmem => ?_
    exact h (List.mem_flatMap.mpr ⟨f, hf, List.contains_iff_mem.mp hmem⟩)
  rw [ownersAmong, hnone]
  rfl

/-! ### What the pass keeps -/

/-- One function adds its own report, if it is idle, and its members. -/
theorem BodyPass.visit_eq (p : BodyPass) (f : Function) :
    p.visit f = ⟨p.warnings ++ if f.idle then [.emptyBodies f.id f.action.kind] else [],
      f.members.foldl (addOwner f.id) p.owners⟩ := by
  unfold BodyPass.visit Function.members Function.idle
  rcases f.action.bodies? with - | ⟨first, second⟩
  · simp
  · cases first <;> cases second <;> simp

/-- The reports so far are those of the idle functions, in order. -/
theorem warnings_bodyPass (functions : List Function) :
    (bodyPass functions).warnings
      = (functions.filter Function.idle).map fun f => .emptyBodies f.id f.action.kind := by
  induction functions using List.reverseRecOn with
  | nil => rfl
  | append_singleton functions f ih =>
      rw [bodyPass, List.foldl_concat, BodyPass.visit_eq]
      change (bodyPass functions).warnings ++ _ = _
      rw [ih, List.filter_append, List.map_append]
      by_cases hidle : f.idle
      · simp [hidle]
      · simp [hidle]

/-- The table so far: a key for each member, and the owners so far as its entry. -/
theorem owners_bodyPass (functions : List Function) :
    (bodyPass functions).owners
      = tableOf (functions.flatMap Function.members).eraseDups (ownersAmong functions) := by
  induction functions using List.reverseRecOn with
  | nil => rfl
  | append_singleton functions f ih =>
      rw [bodyPass, List.foldl_concat, BodyPass.visit_eq]
      change f.members.foldl (addOwner f.id) (bodyPass functions).owners = _
      rw [ih, foldl_addOwner _ _ _ _ fun key => ownersAmong_of_not_mem, List.flatMap_append,
        List.flatMap_singleton]
      exact List.map_congr_left fun key _ => by rw [ownersAmong_concat]

/-! ### Members in ascending order -/

theorem mem_insertAscending {n m : Nat} {items : List Nat} :
    m ∈ insertAscending n items ↔ m = n ∨ m ∈ items := by
  induction items with
  | nil => simp [insertAscending]
  | cons k rest ih =>
      rw [insertAscending]
      split
      · simp
      · split
        · rename_i heq
          simp [heq]
        · simp [ih, or_left_comm]

theorem pairwise_insertAscending {n : Nat} {items : List Nat} (h : items.Pairwise (· < ·)) :
    (insertAscending n items).Pairwise (· < ·) := by
  induction items with
  | nil => exact List.pairwise_singleton _ _
  | cons k rest ih =>
      obtain ⟨hk, hrest⟩ := List.pairwise_cons.mp h
      rw [insertAscending]
      by_cases hlt : n < k
      · rw [if_pos hlt]
        refine List.pairwise_cons.mpr ⟨?_, h⟩
        intro m hm
        rcases List.mem_cons.mp hm with rfl | hm
        · exact hlt
        · exact Nat.lt_trans hlt (hk m hm)
      · rw [if_neg hlt]
        by_cases heq : n = k
        · rwa [if_pos heq]
        · rw [if_neg heq]
          refine List.pairwise_cons.mpr ⟨?_, ih hrest⟩
          intro m hm
          rcases mem_insertAscending.mp hm with rfl | hm
          · exact Nat.lt_of_le_of_ne (Nat.le_of_not_lt hlt) (Ne.symm heq)
          · exact hk m hm

theorem foldl_insertAscending (items : List Nat) :
    (items.foldl (fun found n => insertAscending n found) []).Pairwise (· < ·) ∧
      ∀ m, m ∈ items.foldl (fun found n => insertAscending n found) [] ↔ m ∈ items := by
  induction items using List.reverseRecOn with
  | nil => exact ⟨List.Pairwise.nil, fun m => Iff.rfl⟩
  | append_singleton items n ih =>
      rw [List.foldl_concat]
      refine ⟨pairwise_insertAscending ih.1, fun m => ?_⟩
      rw [mem_insertAscending, ih.2, List.mem_append, List.mem_singleton, or_comm]

theorem pairwise_allMembers (d : Document) : d.allMembers.Pairwise (· < ·) :=
  (foldl_insertAscending _).1

/-- The members in ascending order are those of the table. -/
theorem allMembers_perm (d : Document) :
    d.allMembers.Perm (d.functions.flatMap Function.members).eraseDups := by
  refine (List.perm_ext_iff_of_nodup (pairwise_allMembers d).nodup
    (FirstPlaces.nodup_eraseDups _)).mpr fun m => ?_
  rw [List.mem_eraseDups]
  exact (foldl_insertAscending _).2 m

/-! ### The table in order -/

/-- A table that is sorted by keys is what sorting makes of it in any other order. -/
theorem mergeSort_of_perm {order : OwnerTable} {keys : List Nat} {entry : Nat → List Nat}
    (hkeys : keys.Pairwise (· < ·)) (h : order.Perm (tableOf keys entry)) :
    (order.mergeSort fun a b => a.1 ≤ b.1) = tableOf keys entry := by
  have hperm := (List.mergeSort_perm order fun a b => a.1 ≤ b.1).trans h
  have hsorted : (order.mergeSort fun a b => a.1 ≤ b.1).Pairwise fun a b =>
      decide (a.1 ≤ b.1) = true :=
    List.pairwise_mergeSort (fun a b c => by simpa using Nat.le_trans)
      (fun a b => by simpa using Nat.le_total a.1 b.1) order
  have htable : (tableOf keys entry).Pairwise fun a b => decide (a.1 ≤ b.1) = true := by
    refine List.pairwise_map.mpr (hkeys.imp fun hlt => ?_)
    exact decide_eq_true (Nat.le_of_lt hlt)
  refine List.Perm.eq_of_pairwise (fun a b ha hb hab hba => ?_) hsorted htable hperm
  -- two entries with one key are one entry, since the key tells the rest
  obtain ⟨k, -, rfl⟩ := List.mem_map.mp (hperm.mem_iff.mp ha)
  obtain ⟨l, -, rfl⟩ := List.mem_map.mp hb
  obtain rfl : k = l := Nat.le_antisymm (of_decide_eq_true hab) (of_decide_eq_true hba)
  rfl

/-- The members with several owners, in ascending order. -/
def sharedMembers (d : Document) : List Nat :=
  d.allMembers.filter fun m => 1 < (d.ownersOf m).length

/-- In whatever order the table is read, the shared members are reported in ascending order. -/
theorem sharedIn_of_perm {order : OwnerTable} (h : order.Perm (bodyPass d.functions).owners) :
    sharedIn order = d.sharedMembers.map fun m => .sharedBody m (d.ownersOf m) := by
  rw [owners_bodyPass] at h
  have hsorted : order.Perm (tableOf d.allMembers d.ownersOf) :=
    h.trans ((allMembers_perm d).map _).symm
  have hshared : (order.filter fun entry => 1 < entry.2.length).Perm
      (tableOf d.sharedMembers d.ownersOf) := by
    refine (hsorted.filter _).trans (List.Perm.of_eq ?_)
    rw [tableOf, List.filter_map]
    rfl
  rw [sharedIn, mergeSort_of_perm ((pairwise_allMembers d).filter _) hshared, tableOf,
    List.map_map]
  rfl

/-! ### The checks -/

theorem emptyBodyWarnings_eq (d : Document) :
    d.emptyBodyWarnings
      = (d.functions.filter Function.idle).map fun f => .emptyBodies f.id f.action.kind := by
  rw [← List.filterMap_eq_map, List.filterMap_filter]
  refine List.filterMap_congr fun f _ => ?_
  unfold Function.idle
  rcases f.action.bodies? with - | ⟨_ | _, _ | _⟩ <;> simp

theorem sharedBodyWarnings_eq (d : Document) :
    d.sharedBodyWarnings = d.sharedMembers.map fun m => .sharedBody m (d.ownersOf m) := by
  rw [sharedMembers, ← List.filterMap_eq_map, List.filterMap_filter]
  refine List.filterMap_congr fun m _ => ?_
  simp

/-- Without repetition, a list has two items when two of its items differ. -/
theorem one_lt_length_iff {items : List Nat} (h : items.Nodup) :
    1 < items.length ↔ ∃ a ∈ items, ∃ b ∈ items, a ≠ b := by
  match items with
  | [] => simp
  | [a] => simp
  | a :: b :: rest =>
      have hne : a ≠ b := fun heq => (List.nodup_cons.mp h).1 (heq ▸ List.mem_cons_self)
      refine iff_of_true (by simp) ⟨a, ?_, b, ?_, hne⟩
      · exact List.mem_cons_self
      · exact List.mem_cons_of_mem _ List.mem_cons_self

theorem mem_ownersOf {m id : Nat} :
    id ∈ d.ownersOf m ↔ ∃ f ∈ carriers d.functions m, f.id = id := by
  rw [ownersOf_eq, List.mem_eraseDups, List.mem_map]

/-- The members with several owners are those that functions of different numbers have. -/
theorem mem_sharedMembers (m : Nat) : m ∈ d.sharedMembers ↔ d.Shared m := by
  have hnodup : (d.ownersOf m).Nodup := by
    rw [ownersOf_eq]
    exact FirstPlaces.nodup_eraseDups _
  rw [sharedMembers, List.mem_filter, decide_eq_true_iff, one_lt_length_iff hnodup]
  constructor
  · rintro ⟨-, a, ha, b, hb, hne⟩
    obtain ⟨f, hf, rfl⟩ := mem_ownersOf.mp ha
    obtain ⟨g, hg, rfl⟩ := mem_ownersOf.mp hb
    exact ⟨f, hf, g, hg, hne⟩
  · rintro ⟨f, hf, g, hg, hne⟩
    refine ⟨?_, f.id, mem_ownersOf.mpr ⟨f, hf, rfl⟩, g.id, mem_ownersOf.mpr ⟨g, hg, rfl⟩, hne⟩
    obtain ⟨hmem, hcarries⟩ := List.mem_filter.mp hf
    refine (foldl_insertAscending _).2 m |>.mpr (List.mem_flatMap.mpr ⟨f, hmem, ?_⟩)
    exact List.contains_iff_mem.mp hcarries

/-- In whatever order the table of owners is read, the warnings on bodies are those of the
checks: first the branches and loops with nothing to run, in order, then each shared member
once, in ascending order, with the numbers of the functions that have it, each in its first
place. -/
theorem bodyWarnings_in_every_order (d : Document) {order : OwnerTable}
    (horder : order.Perm (bodyPass d.functions).owners) :
    d.validate.warnings = d.argumentWarnings ++ d.bodyWarningsIn order ∧
      ∃ shared : List Nat, shared.Pairwise (· < ·) ∧ (∀ m, m ∈ shared ↔ d.Shared m) ∧
        d.bodyWarningsIn order
          = ((d.functions.filter Function.idle).map fun f => .emptyBodies f.id f.action.kind)
            ++ shared.map fun m =>
              .sharedBody m ((carriers d.functions m).map Function.id).eraseDups := by
  have hpass : d.bodyWarningsIn order = d.emptyBodyWarnings ++ d.sharedBodyWarnings := by
    rw [bodyWarningsIn, warnings_bodyPass, sharedIn_of_perm horder, emptyBodyWarnings_eq,
      sharedBodyWarnings_eq]
  refine ⟨?_, d.sharedMembers, (pairwise_allMembers d).filter _, mem_sharedMembers, ?_⟩
  · rw [hpass, ← List.append_assoc]
    rfl
  · simp only [hpass, emptyBodyWarnings_eq, sharedBodyWarnings_eq, ownersOf_eq]

/-- A member that stands twice in one body and once in the other, a number that is given twice,
and a member that no function is. -/
def crowded : Document where
  name := "crowded"
  description := ""
  arguments := []
  constants := []
  functions :=
    [⟨5, "", .branch .null [2, 9, 2] [2], .immediate⟩, ⟨5, "", .branch .null [2, 7] [], .immediate⟩,
      ⟨1, "", .loop .null [9, 8] [2], .immediate⟩, ⟨3, "", .loop .null [] [], .immediate⟩]

/-- The table of the crowded document is read from its end. -/
theorem bodyWarnings_crowded :
    let order : OwnerTable := [(8, [1]), (7, [5]), (9, [5, 1]), (2, [5, 1])]
    order.Perm (bodyPass crowded.functions).owners ∧
      crowded.bodyWarningsIn order
        = [.emptyBodies 3 .loop, .sharedBody 2 [5, 1], .sharedBody 9 [5, 1]] := by
  intro order
  have horder : order.Perm (bodyPass crowded.functions).owners := by decide
  have hchecks : crowded.argumentWarnings ++ crowded.bodyWarningsIn order
      = [.emptyBodies 3 .loop, .sharedBody 2 [5, 1], .sharedBody 9 [5, 1]] :=
    (bodyWarnings_in_every_order crowded horder).1.symm
  exact ⟨horder, hchecks⟩

end Testbed.Document
