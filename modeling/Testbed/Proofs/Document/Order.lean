/-
The order of keys.

Equal values, whose members may stand in any order, are read as equal documents, if in each
function the same kind comes first.  With two kinds in a function the order decides which of
them is the action, and the other is passed over; there is nothing else for which the order of
keys counts.
-/
import Testbed.Proofs.Document.Likeness

namespace Testbed.Document

open Json (Codec Equal Same)
open Outcome

/-! ### Like parts are equal -/

/-- Numbers that are equal as numbers, as the two zeros are. -/
abbrev SameNumber (m n : Number) : Prop := m.same n = true

theorem Wait.Alike.same {a b : Wait} (h : a.Alike SameNumber b) : a.same b = true := by
  simp [Wait.same, h.time, h.launched, h.finished]

theorem Job.Alike.same {a b : Job} (h : a.Alike Same SameNumber b) : a.same b = true := by
  obtain ⟨entity, offset, interval, entries⟩ := a
  obtain ⟨entity', offset', interval', entries'⟩ := b
  obtain ⟨hentity, hoffset, hinterval, hentries⟩ := h
  rw [Same, Json.same] at hentries
  rw [Job.same, hentity, hoffset, Json.sameObject, hentries]
  cases hinterval with
  | none => rfl
  | some hlike => simpa using hlike

theorem Action.Alike.same {a b : Action} (h : a.Alike Same SameNumber b) : a.same b = true := by
  cases h with
  | startJob job => exact job.same
  | startScenario scenario arguments =>
      rw [Same, Json.same] at arguments
      simp [Action.same, Json.sameObject, scenario, arguments]
  | reboot entity => exact entity
  | branch condition => simp [Action.same, condition]
  | loop condition => simp [Action.same, condition]
  | _ => simp [Action.same]

/-! ### Equal values -/

/-- The kind that comes first among the keys of an object. -/
def firstKind? : Json → Option Kind
  | .object members => leadingKind? members
  | _ => none

/-- Equal functions in which the same kind comes first. -/
theorem same_function {v w : Json} (h : v.Equal w) (hkind : firstKind? v = firstKind? w)
    {f : Function} (hf : functionRecord.ofJson v = .ok f) :
    ∃ g, functionRecord.ofJson w = .ok g ∧ f.same g = true := by
  obtain ⟨members, rfl, _, _, _, _, kind, payload, action, -, -, -, -, hfirst, haction, rfl⟩ :=
    functionRecord_eq_ok.mp hf
  obtain ⟨members', rfl, hmembers⟩ := Json.likeness_same.object h
  obtain ⟨hleading, hpayload⟩ := kindMember?_iff_leading.mp hfirst
  have hall : Keyed.all kind.tag members = [payload] := by
    rw [Keyed.all_of_nodup h.left.keys, hpayload]
    rfl
  obtain ⟨payload', hall', hpayloads⟩ := (hmembers kind.tag).one payload hall
  have hfirst' : kindMember? members' = some (kind, payload') := by
    refine kindMember?_iff_leading.mpr ⟨hkind.symm.trans hleading, ?_⟩
    rw [← Keyed.head?_all, hall']
    rfl
  obtain ⟨action', haction', hactions⟩ := carries_payload Json.likeness_same hpayloads haction
  obtain ⟨wait', hread, hwait⟩ :=
    carries_function Json.likeness_same h hf rfl hfirst' haction'
  exact ⟨_, hread, by simp [Function.same, hactions.same, hwait.same]⟩

/-- Equal lists of functions in which, one by one, the same kind comes first. -/
theorem same_functions {items items' : List Json} (h : List.Forall₂ Equal items items')
    (hkinds : items.map firstKind? = items'.map firstKind?) {fs : List Function}
    (hfs : ReadsEach items fs) : ∃ gs, ReadsEach items' gs ∧ sameFunctions fs gs = true := by
  induction h generalizing fs with
  | nil =>
      cases hfs
      exact ⟨[], .nil, rfl⟩
  | cons hitem _ ih =>
      cases hfs with
      | cons hf hfs =>
          rw [List.map_cons, List.map_cons, List.cons.injEq] at hkinds
          obtain ⟨g, hg, hsame⟩ := same_function hitem hkinds.1 hf
          obtain ⟨gs, hgs, hsames⟩ := ih hkinds.2 hfs
          exact ⟨g :: gs, .cons hg hgs, by simp [sameFunctions, hsame, hsames]⟩

theorem same_document {v w : Json} (h : v.Equal w)
    (hkinds : (functionItems v).map firstKind? = (functionItems w).map firstKind?) {d : Document}
    (hd : ofJson v = .ok d) : ∃ e, ofJson w = .ok e ∧ d.same e = true := by
  obtain ⟨hitems, hread⟩ := carries_document Json.likeness_same h hd
  obtain ⟨functions, hfunctions, hsame⟩ := same_functions hitems hkinds (reads_functionItems hd)
  obtain ⟨arguments, constants, he, harguments, hconstants⟩ := hread functions hfunctions
  rw [Same, Json.same] at harguments hconstants
  refine ⟨_, he, ?_⟩
  simp [Document.same, Json.sameObject, harguments, hconstants, hsame]

/--
**Equal values are read alike:** either from both no document is read, or from both equal
documents are, if in each function the kind that comes first is the same in both.

Equality of values, as well as of documents, does not count the order of keys.
-/
theorem ofJson_same {v w : Json} (hv : v.KeysOnce) (hw : w.KeysOnce) (hsame : v.same w = true)
    (hkinds : (functionItems v).map firstKind? = (functionItems w).map firstKind?) :
    (∃ d e, ofJson v = .ok d ∧ ofJson w = .ok e ∧ d.same e = true)
      ∨ (¬ Succeeds (ofJson v) ∧ ¬ Succeeds (ofJson w)) := by
  have hequal : v.Equal w := ⟨hsame, hv, hw⟩
  by_cases hread : Succeeds (ofJson v)
  · obtain ⟨d, hd⟩ := hread
    obtain ⟨e, he, hde⟩ := same_document hequal hkinds hd
    exact .inl ⟨d, e, hd, he, hde⟩
  · refine .inr ⟨hread, ?_⟩
    rintro ⟨e, he⟩
    obtain ⟨d, hd, -⟩ := same_document hequal.symm hkinds.symm he
    exact hread ⟨d, hd⟩

theorem keysOnce_of_collapse {v : Json} (h : v.collapse = v) : v.KeysOnce :=
  h ▸ Json.keysOnce_collapse v

/-- A document of one function with some members behind its number and its label. -/
def singleFunction (members : Members) : Json :=
  .object [("name", .string "n"), ("openbach_functions",
    .array [.object (("id", .ofNat 0) :: ("label", .string "l") :: members)])]

/-- A member that reboots an entity. -/
def rebootMember (entity : String) : String × Json :=
  ("reboot", .object [("entity_name", .string entity)])

/-- A member that stops the job of the function itself. -/
def stopMember : String × Json :=
  ("stop_job_instance", .object [("openbach_function_id", .ofNat 0)])

/-- A document with two actions for one function, of which the reboot counts. -/
def rebootFirst : Json := singleFunction [rebootMember "a", stopMember]

/-- The document with the same two actions turned round, of which the stop counts. -/
def stopFirst : Json := singleFunction [stopMember, rebootMember "a"]

/-- The document in which the reboot comes first, with everything else in another order. -/
def rearranged : Json :=
  .object [("openbach_functions", .array [.object [rebootMember "a", ("label", .string "l"),
    stopMember, ("id", .ofNat 0)]]), ("name", .string "n")]

theorem rearranged_same :
    (rebootFirst.KeysOnce ∧ rearranged.KeysOnce ∧ rebootFirst.same rearranged = true
        ∧ (functionItems rebootFirst).map firstKind? = (functionItems rearranged).map firstKind?)
      ∧ ∃ d e, ofJson rebootFirst = .ok d ∧ ofJson rearranged = .ok e ∧ d.same e = true := by
  have hleft : rebootFirst.KeysOnce := keysOnce_of_collapse rfl
  have hright : rearranged.KeysOnce := keysOnce_of_collapse rfl
  have hsame : rebootFirst.same rearranged = true := rfl
  have hkinds : (functionItems rebootFirst).map firstKind?
      = (functionItems rearranged).map firstKind? := rfl
  have hread : Succeeds (ofJson rebootFirst) :=
    ⟨⟨"n", "", [], [], [⟨0, "l", .reboot (.string "a"), .immediate⟩]⟩, rfl⟩
  exact ⟨⟨hleft, hright, hsame, hkinds⟩,
    (ofJson_same hleft hright hsame hkinds).resolve_right fun hfails => hfails.1 hread⟩

/-- **With two kinds in a function the order of keys decides what it does.** -/
theorem stopFirst_differs :
    (rebootFirst.KeysOnce ∧ stopFirst.KeysOnce ∧ rebootFirst.same stopFirst = true)
      ∧ ∃ d e, ofJson rebootFirst = .ok d ∧ ofJson stopFirst = .ok e ∧ d.same e = false := by
  refine ⟨⟨keysOnce_of_collapse rfl, keysOnce_of_collapse rfl, rfl⟩, ?_⟩
  exact ⟨⟨"n", "", [], [], [⟨0, "l", .reboot (.string "a"), .immediate⟩]⟩,
    ⟨"n", "", [], [], [⟨0, "l", .stopJob 0, .immediate⟩]⟩, rfl, rfl, rfl⟩

end Testbed.Document
