/-
Repeated keys.

A key that is repeated in an object has its last value, once the object is read as a value.  A
text that is read as a document is looked at member by member, and there a known key that is
repeated is refused, and an unknown one does not matter.  That leaves the keys that are set aside
in a function, where the first kind gives the action: with its first payload if the text is read,
and with its last one if the value is.
-/
import Testbed.Proofs.Document.Order
import Testbed.Proofs.Document.Text

namespace Testbed.Document

open Json (Codec)
open Outcome

/-- What stands in a function under the name of a kind, in order. -/
def payloads (kind : Kind) : Json → List Json
  | .object members => Keyed.all kind.tag members
  | _ => []

/-- The function that is read from an item, and the one that is read from what the item means. -/
structure Function.ReadTwice (item : Json) (f g : Function) : Prop where
  id : f.id = g.id
  label : f.label = g.label
  wait : f.wait = g.wait
  kind : f.action.kind = g.action.kind
  /-- The one has its action from the first payload of its kind. -/
  first : ∃ payload, (payloads f.action.kind item).head? = some payload
    ∧ Action.ofPayload f.action.kind payload = .ok f.action
  /-- The other has its action from the last payload of the same kind. -/
  last : ∃ payload, (payloads f.action.kind item).getLast? = some payload
    ∧ Action.ofPayload f.action.kind payload.collapse = .ok g.action
  /-- They have the same action if there is one payload of this kind. -/
  action : (payloads f.action.kind item).length = 1 → f.action = g.action

theorem Action.kind_of_ofPayload {kind : Kind} {v : Json} {a : Action}
    (h : Action.ofPayload kind v = .ok a) : a.kind = kind := by
  cases kind <;> obtain ⟨_, -, rfl⟩ := map_eq_ok.mp h <;> rfl

/-- In what an object means the same kind comes first, with the last of its payloads. -/
theorem kindMember?_collapse {members : Members} {kind : Kind} {payload : Json}
    (h : kindMember? members = some (kind, payload)) :
    ∃ last, (Keyed.all kind.tag members).getLast? = some last
      ∧ kindMember? (Keyed.ofList (Json.collapseMembers members)) = some (kind, last.collapse) := by
  obtain ⟨hleading, hpayload⟩ := kindMember?_iff_leading.mp h
  rw [← Keyed.head?_all] at hpayload
  cases hlast : (Keyed.all kind.tag members).getLast? with
  | none =>
      rw [List.getLast?_eq_none_iff.mp hlast] at hpayload
      cases hpayload
  | some last =>
      refine ⟨last, rfl, kindMember?_iff_leading.mpr ⟨?_, ?_⟩⟩
      · rwa [Json.collapseMembers_eq, leadingKind?, Keyed.findSome?_keys_ofList, Keyed.keys_map]
      · rw [Json.collapseMembers_eq, Keyed.get?_ofList, Keyed.all_map, List.getLast?_map, hlast]
        rfl

theorem readTwice_function {item : Json} {f g : Function} (hf : functionRecord.ofJson item = .ok f)
    (hg : functionRecord.ofJson item.collapse = .ok g) : Function.ReadTwice item f g := by
  obtain ⟨members, rfl, _, _, _, _, kind, payload, action, -, -, -, -, hkind, haction, rfl⟩ :=
    functionRecord_eq_ok.mp hf
  obtain ⟨last, hlast, hkind'⟩ := kindMember?_collapse hkind
  obtain ⟨_, heq, _, _, _, _, _, _, action', -, -, -, -, hmember, haction', -⟩ :=
    functionRecord_eq_ok.mp hg
  cases heq
  cases hkind'.symm.trans hmember
  obtain ⟨wait, hg', hwait⟩ :=
    carries_function Json.likeness_collapse rfl hf rfl hkind' haction'
  cases Except.ok.inj (hg.symm.trans hg')
  obtain rfl : action.kind = kind := Action.kind_of_ofPayload haction
  have hfirst := (kindMember?_iff_leading.mp hkind).2
  rw [← Keyed.head?_all] at hfirst
  refine ⟨rfl, rfl, hwait.eq, (Action.kind_of_ofPayload haction').symm,
    ⟨payload, hfirst, haction⟩, ⟨last, hlast, haction'⟩, fun hsingle => ?_⟩
  -- the only payload is the first and the last
  obtain ⟨only, honly⟩ := List.length_eq_one_iff.mp hsingle
  rw [payloads] at honly
  rw [honly] at hfirst hlast
  cases hfirst
  cases hlast
  obtain ⟨_, hread, hlike⟩ := carries_payload Json.likeness_collapse rfl haction
  cases Except.ok.inj (hread.symm.trans haction')
  exact hlike.eq

theorem readTwice_functions {items items' : List Json} {fs gs : List Function}
    (hitems : List.Forall₂ (fun v v' => v' = v.collapse) items items') (hfs : ReadsEach items fs)
    (hgs : ReadsEach items' gs) : fs.length = gs.length
      ∧ List.Forall₂ (fun item pair => Function.ReadTwice item pair.1 pair.2) items
        (fs.zip gs) := by
  induction hitems generalizing fs gs with
  | nil =>
      cases hfs
      cases hgs
      exact ⟨rfl, .nil⟩
  | cons hitem _ ih =>
      cases hitem
      cases hfs with
      | cons hf hfs =>
          cases hgs with
          | cons hg hgs =>
              obtain ⟨hlength, hread⟩ := ih hfs hgs
              exact ⟨congrArg (· + 1) hlength, .cons (readTwice_function hf hg) hread⟩

/-- The document that is read from what is written, and the one that is read from what it means:
they differ in nothing but the actions of functions that repeat the key of their kind. -/
structure ReadTwice (w : Json) (d e : Document) : Prop where
  name : d.name = e.name
  description : d.description = e.description
  arguments : d.arguments = e.arguments
  constants : d.constants = e.constants
  length : d.functions.length = e.functions.length
  functions : List.Forall₂ (fun item pair => Function.ReadTwice item pair.1 pair.2)
    (functionItems w) (d.functions.zip e.functions)

/--
**A text and its value are read alike, whatever keys are repeated:** if a document is read from
each, they are the same, function by function, up to the action of a function that repeats the key
of its kind.
-/
theorem ofText_ofJson {text : String} {v : Json} {d e : Document}
    (hread : Json.parse Json.depthLimit text = .ok v) (hd : ofText text = .ok d)
    (he : ofJson v = .ok e) : ∃ w, WrittenAs text w ∧ w.collapse = v ∧ ReadTwice w d e := by
  obtain ⟨w, hw, rfl⟩ := parse_eq_ok.mp hread
  obtain ⟨_, _, _, _, functions⟩ := e
  have hd' : ofJson w = .ok d := hw.ofText_eq_ok.mp hd
  have hfunctions := reads_functionItems he
  obtain ⟨hitems, hdocument⟩ := carries_document Json.likeness_collapse rfl hd'
  obtain ⟨arguments, constants, he', harguments, hconstants⟩ := hdocument _ hfunctions
  obtain ⟨hlength, htwice⟩ :=
    readTwice_functions hitems (reads_functionItems hd') hfunctions
  cases Except.ok.inj (he.symm.trans he')
  exact ⟨w, hw, rfl, rfl, rfl, Json.object.inj harguments, Json.object.inj hconstants, hlength,
    htwice⟩

/-! ### A text that says two things -/

theorem singleFunction_written {members : Members}
    (hmembers : ∀ entry ∈ members, entry.2.Numbered Number.Restorable)
    (hdepth : (singleFunction members).depth ≤ Json.depthLimit) :
    WrittenAs (singleFunction members).compact (singleFunction members) := by
  refine writtenAs_render ?_ hdepth false
  have hid : (Json.ofNat 0).Numbered Number.Restorable :=
    .number (Number.restorable_natural (by decide))
  have hfunction : (Json.object (("id", .ofNat 0) :: ("label", .string "l") :: members)).Numbered
      Number.Restorable :=
    .object (List.forall_mem_cons.mpr ⟨hid, List.forall_mem_cons.mpr ⟨.string "l", hmembers⟩⟩)
  exact .object (List.forall_mem_cons.mpr ⟨.string "n",
    List.forall_mem_singleton.mpr (.array (List.forall_mem_singleton.mpr hfunction))⟩)

theorem rebootMember_numbered (entity : String) :
    (rebootMember entity).2.Numbered Number.Restorable :=
  .object (List.forall_mem_singleton.mpr (.string entity))

/-- A document in which a key is repeated that no record knows. -/
def noteTwice : Json := singleFunction [("note", .null), rebootMember "a", ("note", .boolean true)]

/-- The document of one reboot. -/
def rebootDocument (entity : String) : Document :=
  ⟨"n", "", [], [], [⟨0, "l", .reboot (.string entity), .immediate⟩]⟩

theorem noteTwice_written : WrittenAs noteTwice.compact noteTwice := by
  refine singleFunction_written (List.forall_mem_cons.mpr ⟨.null, List.forall_mem_cons.mpr
    ⟨rebootMember_numbered "a", List.forall_mem_singleton.mpr (.boolean true)⟩⟩) ?_
  have hdepth : noteTwice.depth = 4 := rfl
  show noteTwice.depth ≤ _
  rw [hdepth]
  decide

theorem noteTwice_readTwice :
    (Json.parse Json.depthLimit noteTwice.compact = .ok noteTwice.collapse
        ∧ ofText noteTwice.compact = .ok (rebootDocument "a")
        ∧ ofJson noteTwice.collapse = .ok (rebootDocument "a"))
      ∧ ∃ w, WrittenAs noteTwice.compact w ∧ w.collapse = noteTwice.collapse
        ∧ ReadTwice w (rebootDocument "a") (rebootDocument "a") := by
  have hread : Json.parse Json.depthLimit noteTwice.compact = .ok noteTwice.collapse :=
    parse_eq_ok.mpr ⟨_, noteTwice_written, rfl⟩
  have htext : ofText noteTwice.compact = .ok (rebootDocument "a") :=
    noteTwice_written.ofText_eq_ok.mpr rfl
  have hvalue : ofJson noteTwice.collapse = .ok (rebootDocument "a") := rfl
  exact ⟨⟨hread, htext, hvalue⟩, ofText_ofJson hread htext hvalue⟩

/-- A document with a function that repeats the key of its kind. -/
def twoReboots : Json := singleFunction [rebootMember "a", rebootMember "b"]

theorem twoReboots_written : WrittenAs twoReboots.compact twoReboots := by
  refine singleFunction_written (List.forall_mem_cons.mpr ⟨rebootMember_numbered "a",
    List.forall_mem_singleton.mpr (rebootMember_numbered "b")⟩) ?_
  have hdepth : twoReboots.depth = 4 := rfl
  show twoReboots.depth ≤ _
  rw [hdepth]
  decide

/-- **The text reboots one entity, and its value another.** -/
theorem twoReboots_differ :
    twoReboots.compact
        = "\x7b\"name\":\"n\",\"openbach_functions\":[\x7b\"id\":0,\"label\":\"l\","
          ++ "\"reboot\":\x7b\"entity_name\":\"a\"\x7d,"
          ++ "\"reboot\":\x7b\"entity_name\":\"b\"\x7d\x7d]\x7d"
      ∧ Json.parse Json.depthLimit twoReboots.compact = .ok twoReboots.collapse
      ∧ ofText twoReboots.compact = .ok (rebootDocument "a")
      ∧ ofJson twoReboots.collapse = .ok (rebootDocument "b")
      ∧ (rebootDocument "a").same (rebootDocument "b") = false := by
  refine ⟨rfl, parse_eq_ok.mpr ⟨_, twoReboots_written, rfl⟩,
    twoReboots_written.ofText_eq_ok.mpr rfl, rfl, rfl⟩

end Testbed.Document
