/-
The wire form of documents.

A document is written member by member, and in most places the keys are fixed.  A job is
the exception: its entries stand beside the fixed keys of its payload, so only those
entries survive that stay away from them.

Nothing is written but what a document holds: its wire form is proper if the values, the
numbers of seconds and the numbers of functions in it are.
-/
import Testbed.Document.Basic
import Testbed.Proofs.Json.Proper

namespace Testbed.Document

namespace Job

/-- The entries of a job can be told from the fixed members, and from one another. -/
structure Apart (j : Job) : Prop where
  once : (Keyed.keys j.entries).Nodup
  free : ∀ key ∈ Keyed.keys j.entries, key ∉ jobKeys

theorem keys_fixedMembers (j : Job) : Keyed.keys j.fixedMembers
    = "entity_name" :: "offset" :: (j.interval.map fun _ => "interval").toList := by
  unfold fixedMembers
  cases j.interval <;> rfl

theorem mem_keys_fixedMembers {j : Job} {key : String} (h : key ∈ Keyed.keys j.fixedMembers) :
    key ∈ jobKeys := by
  rw [keys_fixedMembers] at h
  unfold jobKeys
  cases hinterval : j.interval with
  | none =>
      rw [hinterval] at h
      exact List.mem_of_mem_take (i := 2) h
  | some interval =>
      rw [hinterval] at h
      exact h

theorem nodup_keys_fixedMembers (j : Job) : (Keyed.keys j.fixedMembers).Nodup := by
  rw [keys_fixedMembers]
  cases j.interval with
  | none => decide
  | some interval =>
      rw [Option.map_some]
      decide

/-- What stays away from the fixed members is written behind them as it is. -/
theorem Apart.toMembers_eq {j : Job} (h : j.Apart) : j.toMembers = j.fixedMembers ++ j.entries := by
  refine Keyed.ofList_of_nodup ?_
  rw [Keyed.keys, List.map_append]
  refine List.nodup_append.mpr ⟨j.nodup_keys_fixedMembers, h.once, ?_⟩
  intro key hkey other hother heq
  exact h.free other hother (heq ▸ mem_keys_fixedMembers hkey)

end Job

/-! ### Proper documents -/

variable {ok : Number → Prop}

open Json (Proper)

namespace Action

/-- The values in an action that stand in its payload as they are. -/
def values : Action → List Json
  | startJob job => job.entity :: job.entries.map Prod.snd
  | startScenario scenario arguments => [scenario, .object arguments]
  | reboot entity => [entity]
  | branch condition _ _ => [condition]
  | loop condition _ _ => [condition]
  | stopJob _ | stopJobs _ | stopScenario _ => []

/-- The numbers of seconds in an action. -/
def seconds : Action → List Number
  | startJob job => job.offset :: job.interval.toList
  | _ => []

/-- The numbers of functions in an action. -/
def ids (a : Action) : List Nat :=
  a.targets ++ match a.bodies? with
    | some (first, second) => first ++ second
    | none => []

end Action

theorem Job.proper_toMembers {j : Job} (hentity : j.entity.Proper ok)
    (hentries : ∀ entry ∈ j.entries, entry.2.Proper ok) (hoffset : ok j.offset)
    (hinterval : ∀ interval, j.interval = some interval → ok interval) :
    (Json.object j.toMembers).Proper ok := by
  have hfixed : ∀ entry ∈ j.fixedMembers, entry.2.Proper ok := by
    unfold fixedMembers
    intro entry hentry
    rcases List.mem_append.mp hentry with hentry | hentry
    · rcases List.mem_cons.mp hentry with rfl | hentry
      · exact hentity
      · rw [List.mem_singleton.mp hentry]
        exact .number hoffset
    · cases hj : j.interval with
      | none =>
          rw [hj] at hentry
          cases hentry
      | some interval =>
          rw [hj] at hentry
          rw [List.mem_singleton.mp hentry]
          exact .number (hinterval interval hj)
  refine .ofList fun entry hentry => ?_
  rcases List.mem_append.mp hentry with hentry | hentry
  · exact hfixed entry hentry
  · exact hentries entry hentry

/-- An object with fixed keys. -/
theorem proper_record {members : Members} (hkeys : (Keyed.keys members).Nodup)
    (hvalues : ∀ v ∈ members.map Prod.snd, v.Proper ok) : (Json.object members).Proper ok :=
  .object hkeys fun _ hentry => hvalues _ (List.mem_map_of_mem hentry)

/-- The payload of a kind with two bodies. -/
theorem proper_bodies {firstKey secondKey : String}
    (hkeys : ["condition", firstKey, secondKey].Nodup) {condition : Json}
    (hcondition : condition.Proper ok) {first second : List Nat}
    (hids : ∀ id ∈ first ++ second, ok (.integer id)) :
    (Json.object [("condition", condition), (firstKey, .ofNats first),
      (secondKey, .ofNats second)]).Proper ok := by
  have hfirst : (Json.ofNats first).Proper ok :=
    Json.proper_ofNats fun id hid => hids id (List.mem_append_left _ hid)
  have hsecond : (Json.ofNats second).Proper ok :=
    Json.proper_ofNats fun id hid => hids id (List.mem_append_right _ hid)
  exact proper_record hkeys (by simp [hcondition, hfirst, hsecond])

/-- **The payload of an action is proper if everything in the action is.** -/
theorem Action.proper_payload {a : Action} (hvalues : ∀ v ∈ a.values, v.Proper ok)
    (hseconds : ∀ n ∈ a.seconds, ok n) (hids : ∀ id ∈ a.ids, ok (.integer id)) :
    a.payload.Proper ok := by
  cases a with
  | startJob job =>
      refine Job.proper_toMembers (hvalues _ List.mem_cons_self) (fun entry hentry => ?_)
        (hseconds _ List.mem_cons_self) fun interval hinterval => ?_
      · exact hvalues _ (List.mem_cons_of_mem _ (List.mem_map_of_mem hentry))
      · refine hseconds _ (List.mem_cons_of_mem _ ?_)
        rw [hinterval]
        exact List.mem_singleton_self _
  | stopJob target =>
      refine proper_record (List.nodup_singleton _) fun v hv => ?_
      rw [List.mem_singleton.mp hv]
      exact .number (hids target (List.mem_singleton_self _))
  | stopJobs targets =>
      refine proper_record (List.nodup_singleton _) fun v hv => ?_
      rw [List.mem_singleton.mp hv]
      exact Json.proper_ofNats fun id hid => hids id (List.mem_append_left _ hid)
  | startScenario scenario arguments =>
      exact proper_record (by simp [Keyed.keys]) hvalues
  | stopScenario target =>
      refine proper_record (List.nodup_singleton _) fun v hv => ?_
      rw [List.mem_singleton.mp hv]
      exact .number (hids target (List.mem_singleton_self _))
  | reboot entity => exact proper_record (List.nodup_singleton _) hvalues
  | branch condition whenTrue whenFalse =>
      exact proper_bodies (by decide) (hvalues condition (List.mem_singleton_self _)) hids
  | loop condition eachRound atEnd =>
      exact proper_bodies (by decide) (hvalues condition (List.mem_singleton_self _)) hids

theorem Wait.proper_toJson {w : Wait} (htime : ok w.time)
    (hids : ∀ id ∈ w.references, ok (.integer id)) : w.toJson.Proper ok := by
  have hlaunched : (Json.ofNats w.launched).Proper ok :=
    Json.proper_ofNats fun id hid => hids id (List.mem_append_left _ hid)
  have hfinished : (Json.ofNats w.finished).Proper ok :=
    Json.proper_ofNats fun id hid => hids id (List.mem_append_right _ hid)
  have htime : (Json.number w.time).Proper ok := .number htime
  exact proper_record (by simp [Keyed.keys]) (by simp [htime, hlaunched, hfinished])

/-- A function has every key once: no kind is one of the fixed keys. -/
theorem Function.nodup_keys {f : Function} {members : Members} (h : f.toJson = .object members) :
    (Keyed.keys members).Nodup := by
  cases h
  cases hkind : f.action.kind <;> simp [Keyed.keys, Action.toMember, hkind, Kind.tag]

theorem Function.proper_toJson {f : Function} (hid : ok (.integer f.id))
    (haction : f.action.payload.Proper ok) (hwait : f.wait.toJson.Proper ok) :
    f.toJson.Proper ok := by
  have hid : (Json.ofNat f.id).Proper ok := .number hid
  have hlabel : (Json.string f.label).Proper ok := .string _
  have hfail : (Json.object []).Proper ok := Json.proper_empty
  exact proper_record (nodup_keys rfl)
    (by simp [Action.toMember, hid, hlabel, haction, hwait, hfail])

theorem proper_toJson {d : Document} (harguments : (Json.object d.arguments).Proper ok)
    (hconstants : (Json.object d.constants).Proper ok)
    (hfunctions : ∀ f ∈ d.functions, f.toJson.Proper ok) : d.toJson.Proper ok := by
  have hname : (Json.string d.name).Proper ok := .string _
  have hdescription : (Json.string d.description).Proper ok := .string _
  have hlist : (Json.array (d.functions.map Function.toJson)).Proper ok := by
    refine .array fun v hv => ?_
    obtain ⟨f, hf, rfl⟩ := List.mem_map.mp hv
    exact hfunctions f hf
  exact proper_record (by simp [Keyed.keys])
    (by simp [hname, hdescription, harguments, hconstants, hlist])

end Testbed.Document
